import Phasegent.Cleanup.Served

namespace Phasegent.Cleanup
open Fallible Interleaving Sql

section Paths
variable (host : SessionHost) (usable : String → Prop)

def SessionHost.ParentOf (child parent : String) : Prop :=
  ∃ session, host.find child = some session ∧ session.parent = some parent

/-- The chain of parents from the start to the last session, within the number of edges. -/
structure Ascent (edges : Nat) (start : String) (before : List String) (last : String) : Prop where
  starts : (before ++ [last]).head? = some start
  linked : (before ++ [last]).IsChain host.ParentOf
  within : before.length < edges
  used : ∀ session ∈ before ++ [last], usable session

/-- The chain meets the family before any session repeats. -/
def Meets (family : List String) (edges : Nat) (visited : List String) (start : String) : Prop :=
  ∃ before root, Ascent host usable edges start before root ∧ root ∈ family ∧ (before ++ visited).Nodup

def Leaves (family : List String) (edges : Nat) (visited : List String) (start : String) : Prop :=
  ∃ before last, Ascent host usable edges start before last ∧
    (∃ session, host.find last = some session ∧ session.parent = none) ∧
    (∀ session ∈ before ++ [last], session ∉ family) ∧ (before ++ [last] ++ visited).Nodup

variable {host usable} {edges : Nat} {start next last : String} {before family visited : List String}

theorem ascent_here (used : usable start) : Ascent host usable (edges + 1) start [] start where
  starts := rfl
  linked := by simp
  within := by simp
  used := by simpa using used

theorem Ascent.above (ascent : Ascent host usable edges next before last) (parent : host.ParentOf start next)
    (used : usable start) : Ascent host usable (edges + 1) start (start :: before) last where
  starts := rfl
  linked := by
    have first := ascent.starts
    rw [List.cons_append, List.isChain_cons]
    exact ⟨fun other among => by rw [first] at among; cases among; exact parent, ascent.linked⟩
  within := by simpa using ascent.within
  used := by simpa using ⟨used, by simpa using ascent.used⟩

theorem Ascent.cases (ascent : Ascent host usable (edges + 1) start before last) :
    before = [] ∧ last = start ∨
      ∃ next rest, before = start :: rest ∧ host.ParentOf start next ∧ Ascent host usable edges next rest last := by
  cases before with
  | nil =>
      have first := ascent.starts
      simp only [List.nil_append, List.head?_cons, Option.some.injEq] at first
      exact Or.inl ⟨rfl, first⟩
  | cons first rest =>
      have same := ascent.starts
      simp only [List.cons_append, List.head?_cons, Option.some.injEq] at same
      obtain rfl := same
      obtain ⟨next, head⟩ : ∃ next, (rest ++ [last]).head? = some next := by
        cases rest <;> simp
      have linked := ascent.linked
      rw [List.cons_append, List.isChain_cons] at linked
      refine Or.inr ⟨next, rest, rfl, linked.1 next head, head, linked.2, ?_, ?_⟩
      · simpa using ascent.within
      · exact fun session among => ascent.used session (List.mem_cons_of_mem _ among)

theorem Ascent.used_start (ascent : Ascent host usable edges start before last) : usable start :=
  ascent.used start (List.mem_of_head? ascent.starts)

theorem nodup_above : (start :: before ++ visited).Nodup ↔ (before ++ start :: visited).Nodup :=
  List.perm_middle.symm.nodup_iff

theorem Meets.distinct (meets : Meets host usable family edges visited start) : visited.Nodup := by
  obtain ⟨before, root, -, -, distinct⟩ := meets
  exact distinct.of_append_right

theorem Leaves.distinct (leaves : Leaves host usable family edges visited start) : visited.Nodup := by
  obtain ⟨before, last, -, -, -, distinct⟩ := leaves
  exact distinct.of_append_right

theorem not_meets_zero : ¬Meets host usable family 0 visited start := by
  rintro ⟨before, root, ascent, -, -⟩
  exact Nat.not_lt_zero _ ascent.within

theorem not_leaves_zero : ¬Leaves host usable family 0 visited start := by
  rintro ⟨before, last, ascent, -, -, -⟩
  exact Nat.not_lt_zero _ ascent.within

theorem meets_succ : Meets host usable family (edges + 1) visited start ↔ usable start ∧
    (start ∈ family ∧ visited.Nodup ∨
      ∃ next, host.ParentOf start next ∧ Meets host usable family edges (start :: visited) next) := by
  constructor
  · rintro ⟨before, root, ascent, member, distinct⟩
    refine ⟨ascent.used_start, ?_⟩
    obtain ⟨rfl, rfl⟩ | ⟨next, rest, rfl, parent, above⟩ := ascent.cases
    · exact Or.inl ⟨member, distinct⟩
    · exact Or.inr ⟨next, parent, rest, root, above, member, nodup_above.mp distinct⟩
  · rintro ⟨used, ⟨member, distinct⟩ | ⟨next, parent, before, root, ascent, member, distinct⟩⟩
    · exact ⟨[], start, ascent_here used, member, distinct⟩
    · exact ⟨start :: before, root, ascent.above parent used, member, nodup_above.mpr distinct⟩

theorem leaves_succ : Leaves host usable family (edges + 1) visited start ↔ usable start ∧ start ∉ family ∧
    ((∃ session, host.find start = some session ∧ session.parent = none) ∧ (start :: visited).Nodup ∨
      ∃ next, host.ParentOf start next ∧ Leaves host usable family edges (start :: visited) next) := by
  constructor
  · rintro ⟨before, last, ascent, final, foreign, distinct⟩
    refine ⟨ascent.used_start, foreign start (List.mem_of_head? ascent.starts), ?_⟩
    obtain ⟨rfl, rfl⟩ | ⟨next, rest, rfl, parent, above⟩ := ascent.cases
    · exact Or.inl ⟨final, distinct⟩
    · refine Or.inr ⟨next, parent, rest, last, above, final, ?_, nodup_above.mp distinct⟩
      exact fun session among => foreign session (List.mem_cons_of_mem _ among)
  · rintro ⟨used, foreign, ⟨final, distinct⟩ | ⟨next, parent, before, last, ascent, final, others, distinct⟩⟩
    · exact ⟨[], start, ascent_here used, final, by simpa using foreign, distinct⟩
    · refine ⟨start :: before, last, ascent.above parent used, final, ?_, nodup_above.mpr distinct⟩
      intro session among
      obtain rfl | later := List.mem_cons.mp among
      · exact foreign
      · exact others session later

end Paths

section Climbing
variable {service : HostService} {host : SessionHost} {id parent next : String} {edges : Nat}
  {family visited : List String}

def Usable (session : String) : Prop := isOpencodeSession session = true

theorem climb_unusable (unusable : ¬Usable parent) :
    ∃ e, look (serve service) (climb id family (edges + 1) visited parent) host = .error e := by
  have refused : isOpencodeSession parent = false := by simpa [Usable] using unusable
  rw [climb, host_bind (performs_fromExcept _), look_fromExcept]
  exact ⟨_, by rw [refuse, if_pos refused]; rfl⟩

theorem climb_usable (usable : Usable parent) :
    look (serve service) (climb id family (edges + 1) visited parent) host =
      if family.contains parent then .ok true
      else look (serve service) (do
        fromExcept (refuse (visited.contains parent)
          ("the parent lineage of OpenCode session '" ++ id ++ "' is cyclic"))
        let located ← locate (parentTexts id parent) parent
        match located.parentId with
        | none => return false
        | some next => climb id family edges (parent :: visited) next : HostM Bool) host := by
  have accepted : ¬isOpencodeSession parent = false := by simpa [Usable] using usable
  rw [climb, host_bind (performs_fromExcept _), look_fromExcept, refuse, if_neg accepted]
  by_cases member : family.contains parent
  · rw [if_pos member, if_pos member]
    rfl
  · rw [if_neg member, if_neg member]
    rfl

theorem climb_family (usable : Usable parent) (member : parent ∈ family) :
    look (serve service) (climb id family (edges + 1) visited parent) host = .ok true := by
  rw [climb_usable usable, if_pos (List.contains_iff_mem.mpr member)]

theorem climb_cyclic (usable : Usable parent) (foreign : parent ∉ family) (seen : parent ∈ visited) :
    ∃ e, look (serve service) (climb id family (edges + 1) visited parent) host = .error e := by
  rw [climb_usable usable, if_neg (mt List.contains_iff_mem.mp foreign), host_bind (performs_fromExcept _),
    look_fromExcept]
  exact ⟨_, by rw [refuse, if_pos (List.contains_iff_mem.mpr seen)]; rfl⟩

theorem climb_fresh (usable : Usable parent) (foreign : parent ∉ family) (fresh : parent ∉ visited) :
    look (serve service) (climb id family (edges + 1) visited parent) host =
      match host.find parent with
      | none => .error ((parentTexts id parent).failed (service.unknown parent))
      | some session =>
          match session.parent with
          | none => .ok false
          | some next => look (serve service) (climb id family edges (parent :: visited) next) host := by
  rw [climb_usable usable, if_neg (mt List.contains_iff_mem.mp foreign), host_bind (performs_fromExcept _),
    look_fromExcept, refuse, if_neg (mt List.contains_iff_mem.mp fresh), ok_bind, host_bind (performs_locate _ _),
    look_locate]
  cases found : host.find parent with
  | none => rfl
  | some session =>
      cases above : session.parent with
      | none =>
          simp only [ok_bind, HostSession.located, above]
          rfl
      | some next => simp only [ok_bind, HostSession.located, above]

theorem climb_iff (distinct : visited.Nodup) :
    (look (serve service) (climb id family edges visited parent) host = .ok true ↔
        Meets host Usable family edges visited parent) ∧
      (look (serve service) (climb id family edges visited parent) host = .ok false ↔
        Leaves host Usable family edges visited parent) := by
  induction edges generalizing visited parent with
  | zero => exact ⟨⟨nofun, fun meets => (not_meets_zero meets).elim⟩, ⟨nofun, fun ends => (not_leaves_zero ends).elim⟩⟩
  | succ edges ih =>
      rw [meets_succ, leaves_succ]
      by_cases usable : Usable parent
      swap
      · obtain ⟨e, failed⟩ := @climb_unusable service host id parent edges family visited usable
        simp [failed, usable]
      by_cases member : parent ∈ family
      · simp [climb_family usable member, usable, member, distinct]
      by_cases seen : parent ∈ visited
      · obtain ⟨e, failed⟩ := @climb_cyclic service host id parent edges family visited usable member seen
        have repeated : ¬(parent :: visited).Nodup := by simp [seen]
        have unmet : ∀ next, ¬Meets host Usable family edges (parent :: visited) next :=
          fun next meets => repeated meets.distinct
        have unended : ∀ next, ¬Leaves host Usable family edges (parent :: visited) next :=
          fun next ends => repeated ends.distinct
        simp [failed, member, unmet, unended, seen]
      have longer : (parent :: visited).Nodup := List.nodup_cons.mpr ⟨seen, distinct⟩
      rw [climb_fresh usable member seen]
      cases found : host.find parent with
      | none => simp [SessionHost.ParentOf, found, member]
      | some session =>
          cases above : session.parent with
          | none => simp [SessionHost.ParentOf, found, above, usable, member, longer]
          | some next => simp [SessionHost.ParentOf, found, above, usable, member, ih longer]

end Climbing

section Lineage
variable (service : HostService) (host : SessionHost) (id : String) (start : Option String)
  (family : List String)

/-- A lineage is positive where the chain of parents meets the family through usable sessions, negative
where there is no chain or it ends outside of the family, and uncertain in every other case. -/
theorem lineage_decides :
    (look (serve service) (lineage id start family) host = .ok true ↔
        ∃ parent, start = some parent ∧ Meets host Usable family 64 [id] parent) ∧
      (look (serve service) (lineage id start family) host = .ok false ↔
        start = none ∨ ∃ parent, start = some parent ∧ Leaves host Usable family 64 [id] parent) ∧
      ((∃ reason, look (serve service) (lineage id start family) host = .error reason) ↔
        ∃ parent, start = some parent ∧ ¬Meets host Usable family 64 [id] parent ∧
          ¬Leaves host Usable family 64 [id] parent) := by
  cases start with
  | none =>
      have absent : look (serve service) (lineage id none family) host = .ok false := rfl
      simp [absent]
  | some parent =>
      have single : [id].Nodup := List.nodup_singleton id
      obtain ⟨met, ended⟩ := @climb_iff service host id parent 64 family [id] single
      have climbs : look (serve service) (lineage id (some parent) family) host =
          look (serve service) (climb id family 64 [id] parent) host := rfl
      rw [climbs]
      refine ⟨by simpa using met, by simpa using ended, ?_⟩
      cases outcome : look (serve service) (climb id family 64 [id] parent) host with
      | error reason =>
          rw [outcome] at met ended
          simpa using ⟨mt met.mpr nofun, mt ended.mpr nofun⟩
      | ok related =>
          rw [outcome] at met ended
          cases related with
          | true => simpa using fun unmet => (unmet (met.mp rfl)).elim
          | false => simpa using fun _ => ended.mp rfl

-- A family that lists an unusable parent is met at once, and yet the lineage is uncertain.
theorem unusable_root_is_uncertain : ¬∀ (service : HostService) (host : SessionHost) (id : String)
    (start : Option String) (family : List String),
    look (serve service) (lineage id start family) host = .ok true ↔
      ∃ parent, start = some parent ∧ Meets host (fun _ => True) family 64 [id] parent := by
  intro claim
  let service : HostService :=
    ⟨fun _ _ => ⟨[], none⟩, fun _ => [], fun id => .plain id, .error "no main checkout", false, 0⟩
  have met : Meets ⟨[], List.nodup_nil⟩ (fun _ => True) ["rogue"] 64 ["ses_child"] "rogue" := by
    rw [meets_succ]
    simp
  have positive := (claim service ⟨[], List.nodup_nil⟩ "ses_child" (some "rogue") ["rogue"]).mpr ⟨_, rfl, met⟩
  have unusable : ¬Usable "rogue" := show ¬isOpencodeSession "rogue" = true by decide
  obtain ⟨reason, uncertain⟩ :=
    @climb_unusable service ⟨[], List.nodup_nil⟩ "ses_child" "rogue" 63 ["rogue"] ["ses_child"] unusable
  cases positive.symm.trans uncertain

end Lineage

end Phasegent.Cleanup

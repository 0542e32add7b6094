import Phasegent.Interleaving.Embedding

namespace Http
open Interleaving

variable {U α : Type}

inductive Policy where
  | none
  | limited (left : Nat)
  deriving DecidableEq, Repr

def Policy.left : Policy → Nat
  | .none => 0
  | .limited left => left

def Policy.standard : Policy := .limited 10

abbrev Header := String × String

structure Request (U : Type) where
  method : String
  url : U
  headers : List Header
  policy : Policy
  deriving DecidableEq, Repr

structure SendError where
  message : String
  transient : Bool
  deriving DecidableEq, Repr

structure Response (U : Type) where
  status : Nat
  location : Option U
  text : Except SendError String

abbrev Answer (U : Type) := Except SendError (Response U)

/-- A program on the wire: each effect is one request, answered by whatever the server likes. -/
abbrev Wire (U α : Type) := Prog (Request U) (fun _ => Answer U) α

abbrev WireHistory (U : Type) := History (Request U) fun _ => Answer U

section Redirects
variable (sameHost : U → U → Bool)

def Response.target (response : Response U) : Option U :=
  if response.status ∈ [301, 302, 303, 307, 308] then response.location else none

def redirectMethod (status : Nat) (method : String) : String :=
  if status ∈ [301, 302, 303] ∧ method ≠ "HEAD" then "GET" else method

/-- The headers a client drops when the host changes. -/
def standardCredentials : List String :=
  ["authorization", "cookie", "proxy-authorization", "www-authenticate"]

def keptHeaders (request : Request U) (target : U) : List Header :=
  if sameHost request.url target then request.headers
  else request.headers.filter fun header => header.1 ∉ standardCredentials

def redirected (request : Request U) (status left : Nat) (target : U) : Request U where
  method := redirectMethod status request.method
  url := target
  headers := keptHeaders sameHost request target
  policy := .limited left

/-- The request that follows an answer without the caller being asked. -/
def continuation (request : Request U) (answer : Answer U) : Option (Request U) :=
  match request.policy, answer with
  | .limited (left + 1), .ok response =>
      response.target.map (redirected sameHost request response.status left)
  | _, _ => none

def settle (request : Request U) (answer : Answer U) : Answer U :=
  match request.policy, answer with
  | .limited 0, .ok response =>
      if response.target.isSome then .error ⟨"too many redirects", false⟩ else answer
  | _, _ => answer

def sendWithin : Nat → Request U → Wire U (Answer U)
  | 0, request => .call request fun answer => .done (settle request answer)
  | left + 1, request => .call request fun answer =>
      match continuation sameHost request answer with
      | some next => sendWithin left next
      | none => .done (settle request answer)

def send (request : Request U) : Wire U (Answer U) := sendWithin sameHost request.policy.left request

end Redirects

section Histories
variable {sameHost : U → U → Bool} {fresh safe : Request U → Prop} {h : WireHistory U}
  {request next : Request U} {answer : Answer U}

def Continues (sameHost : U → U → Bool) (fresh : Request U → Prop) :
    WireHistory U → Request U → Prop
  | [], request => fresh request
  | act :: _, request => match continuation sameHost act.effect act.answer with
      | some next => request = next
      | none => fresh request

def Settled (sameHost : U → U → Bool) (h : WireHistory U) : Prop :=
  ∀ act ∈ h.head?, continuation sameHost act.effect act.answer = none

theorem Continues.of_fresh (own : fresh request) (settled : Settled sameHost h) :
    Continues sameHost fresh h request := by
  cases h with
  | nil => exact own
  | cons act rest => simpa [Continues, settled act rfl] using own

theorem continuation_some (goes : continuation sameHost request answer = some next) :
    ∃ left response target, request.policy = .limited (left + 1) ∧ answer = .ok response ∧
      response.target = some target ∧
      next = redirected sameHost request response.status left target := by
  unfold continuation at goes
  split at goes
  · next left response same =>
      obtain ⟨target, own, rfl⟩ := Option.map_eq_some_iff.mp goes
      exact ⟨left, response, target, same, rfl, own, rfl⟩
  · cases goes

theorem continuation_of {response : Response U} {target : U} (answered : answer = .ok response)
    (own : response.target = some target) (may : 0 < request.policy.left) :
    ∃ left, continuation sameHost request answer =
      some (redirected sameHost request response.status left target) := by
  cases policy : request.policy with
  | none => simp [policy, Policy.left] at may
  | limited left =>
      cases left with
      | zero => simp [policy, Policy.left] at may
      | succ left => exact ⟨left, by simp [continuation, policy, answered, own]⟩

theorem continuation_left (goes : continuation sameHost request answer = some next) :
    request.policy.left = next.policy.left + 1 := by
  obtain ⟨left, response, target, limited, -, -, rfl⟩ := continuation_some goes
  simp [limited, Policy.left, redirected]

theorem mem_keptHeaders {header : Header} {target : U} : header ∈ keptHeaders sameHost request target ↔
    header ∈ request.headers ∧ (sameHost request.url target ∨ header.1 ∉ standardCredentials) := by
  unfold keptHeaders
  split
  · next same => simp [same]
  · next other => simp [other]

theorem sendWithin_along (left : Nat) (enough : request.policy.left ≤ left)
    (continues : Continues sameHost fresh h request) :
    (sendWithin sameHost left request).Along (Continues sameHost fresh)
      (fun _ => Settled sameHost) h := by
  induction left generalizing request h with
  | zero =>
      refine ⟨continues, fun answer => ?_⟩
      rintro act ⟨⟩
      cases goes : continuation sameHost request answer with
      | none => rfl
      | some next =>
          have step := continuation_left goes
          omega
  | succ left ih =>
      refine ⟨continues, fun answer => ?_⟩
      cases goes : continuation sameHost request answer with
      | none =>
          simp only [goes]
          rintro act ⟨⟩
          exact goes
      | some next =>
          have step := continuation_left goes
          simp only [goes]
          apply ih (by omega)
          simp [Continues, goes]

theorem send_along (own : fresh request) (settled : Settled sameHost h) :
    (send sameHost request).Along (Continues sameHost fresh) (fun _ => Settled sameHost) h :=
  sendWithin_along _ (Nat.le_refl _) (.of_fresh own settled)

theorem continued {act : Act (Request U) fun _ => Answer U}
    (guarded : Guarded (Continues sameHost fresh) h) (among : act ∈ h)
    (goes : continuation sameHost act.effect act.answer = some next) :
    h.head? = some act ∨ ∃ later ∈ h, later.effect = next := by
  induction h with
  | nil => cases among
  | cons newest rest ih =>
      obtain rfl | earlier := List.mem_cons.mp among
      · exact .inl rfl
      · right
        obtain last | ⟨later, among', same⟩ := ih guarded.2 earlier
        · cases rest with
          | nil => cases last
          | cons act' rest =>
              obtain rfl : act' = act := Option.some.inj last
              have continues := guarded.1
              simp only [Continues, goes] at continues
              exact ⟨newest, List.mem_cons_self, continues⟩
        · exact ⟨later, List.mem_cons_of_mem _ among', same⟩

theorem safe_of_answers (own : ∀ request, fresh request → safe request)
    (guarded : Guarded (Continues sameHost fresh) h)
    (answers : ∀ act ∈ h, safe act.effect → ∀ next,
      continuation sameHost act.effect act.answer = some next → safe next) :
    ∀ act ∈ h, safe act.effect := by
  induction h with
  | nil => exact fun _ impossible => nomatch impossible
  | cons newest rest ih =>
      have earlier := ih guarded.2 fun act among => answers act (List.mem_cons_of_mem _ among)
      have latest : safe newest.effect := by
        have continues := guarded.1
        cases rest with
        | nil => exact own _ continues
        | cons before rest =>
            cases goes : continuation sameHost before.effect before.answer with
            | none =>
                simp only [Continues, goes] at continues
                exact own _ continues
            | some next =>
                simp only [Continues, goes] at continues
                rw [continues]
                exact answers before (by simp) (earlier before (by simp)) next goes
      exact List.forall_mem_cons.mpr ⟨latest, earlier⟩

end Histories

end Http

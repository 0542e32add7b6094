import Phasegent.Task.Key

namespace Phasegent.Task
open Fallible

theorem validateField_ok {value field text : String} :
    validateField value field = .ok text ↔
      trimText value = text ∧ text ≠ "" ∧ text.toList.any Text.isControl = false ∧
        text.toList.length ≤ maxFieldChars := by
  simp only [validateField, bind_eq_ok, refuse_eq_ok, Fallible.pure_eq, Except.ok.injEq]
  constructor
  · rintro ⟨-, filled, -, clean, -, short, rfl⟩
    exact ⟨rfl, filled, by simpa using clean, by simpa using short⟩
  · rintro ⟨rfl, filled, clean, short⟩
    exact ⟨(), filled, (), by simp [clean], (), by simpa using short, rfl⟩

theorem validateField_idem {value field field' text : String}
    (valid : validateField value field = .ok text) : validateField text field' = .ok text := by
  obtain ⟨rfl, rest⟩ := validateField_ok.mp valid
  exact validateField_ok.mpr ⟨trimText_trimText value, rest⟩

theorem validateExternalId_ok {value text : String} :
    validateExternalId value = .ok text ↔
      validateField value "external id" = .ok text ∧
        ¬(1 < text.toList.length ∧ text.toList.head? = some '0') ∧
        ∃ number, Text.parseU64 text.toList = some number ∧ 0 < number ∧ number ≤ i64Max := by
  simp only [validateExternalId, bind_eq_ok, refuse_eq_ok]
  constructor
  · rintro ⟨trimmed, valid, -, plain, parsed⟩
    split at parsed
    · simp at parsed
    · next number value =>
        simp only [bind_eq_ok, refuse_eq_ok, Fallible.pure_eq, Except.ok.injEq] at parsed
        obtain ⟨-, range, rfl⟩ := parsed
        exact ⟨valid, plain, number, value, by omega, by omega⟩
  · rintro ⟨valid, plain, number, value, positive, bounded⟩
    refine ⟨text, valid, (), plain, ?_⟩
    rw [value]
    simp only [bind_eq_ok, refuse_eq_ok, Fallible.pure_eq]
    exact ⟨(), by omega, trivial⟩

theorem validateExternalId_idem {value text : String}
    (valid : validateExternalId value = .ok text) : validateExternalId text = .ok text := by
  obtain ⟨field, rest⟩ := validateExternalId_ok.mp valid
  exact validateExternalId_ok.mpr ⟨validateField_idem field, rest⟩

theorem validateRepoKey_ok {repoKey text : String} (valid : validateRepoKey repoKey = .ok text) :
    text = repoKey := by
  simp only [validateRepoKey, bind_eq_ok, refuse_eq_ok, Fallible.pure_eq, Except.ok.injEq] at valid
  obtain ⟨-, -, -, -, -, -, rfl⟩ := valid
  rfl

section Keys
variable {urls : UrlLibrary}

theorem new_ok {provider inst project externalId : String} {key : TaskKey} :
    TaskKey.new urls provider inst project externalId = .ok key ↔
      ∃ text kind, validateField provider "provider" = .ok text ∧
        ProviderKind.fromStr key.provider = .ok kind ∧
        String.ofList (Text.toAsciiLower text.toList) = key.provider ∧
        validateField project "project" = .ok key.project ∧
        validateExternalId externalId = .ok key.externalId ∧
        taskInstance urls kind inst key.project = .ok key.inst := by
  simp only [TaskKey.new, bind_eq_ok, mapError_eq_ok, Fallible.pure_eq, Except.ok.injEq]
  constructor
  · rintro ⟨text, field, kind, parsed, project', named, external, numbered, inst', located, rfl⟩
    exact ⟨text, kind, field, parsed, rfl, named, numbered, located⟩
  · rintro ⟨text, kind, field, parsed, lower, named, numbered, located⟩
    refine ⟨text, field, kind, ?_, _, named, _, numbered, _, located, ?_⟩
    · rw [lower, parsed]
    · rw [lower]

theorem canonicalInstance_idem (laws : urls.Documented) {kind : ProviderKind}
    {endpoint project inst : String}
    (located : canonicalInstance urls kind (some endpoint) project = .ok inst) :
    canonicalInstance urls kind (some inst) project = .ok inst := by
  cases kind with
  | localStore => exact located
  | forgejo =>
      simp only [canonicalInstance, ForgejoConfig.new, bind_eq_ok, mapError_eq_ok,
        Fallible.pure_eq, Except.ok.injEq] at located ⊢
      obtain ⟨config, ⟨base, valid, repository, named, rfl⟩, rfl⟩ := located
      exact ⟨_, ⟨base, validateApiBase_idem laws valid, repository, named, rfl⟩, rfl⟩
  | redmine =>
      simp only [canonicalInstance, bind_eq_ok, mapError_eq_ok, refuse_eq_ok] at located ⊢
      obtain ⟨url, parsed, -, userinfo, normal⟩ := located
      have again := normalizeRedmineApiBase_idem laws normal
      obtain ⟨url', parsed', http, rfl⟩ := normalizeRedmineApiBase_ok.mp normal
      obtain rfl : url = url' := Except.ok.inj (parsed.symm.trans parsed')
      obtain ⟨-, reparsed⟩ := dropTrailingSlash_fixed laws http
      have same : urls.username (urls.dropTrailingSlash url) = urls.username url ∧
          urls.password (urls.dropTrailingSlash url) = urls.password url :=
        laws.setPath_userinfo url _ http
      exact ⟨_, reparsed, (), by rwa [same.1, same.2], again⟩

theorem taskInstance_idem (laws : urls.Documented) {kind : ProviderKind}
    {endpoint project inst : String} (located : taskInstance urls kind endpoint project = .ok inst) :
    taskInstance urls kind inst project = .ok inst := by
  cases kind with
  | localStore =>
      simp only [taskInstance, canonicalInstance, bind_eq_ok, refuse_eq_ok, Fallible.pure_eq,
        Except.ok.injEq] at located ⊢
      obtain ⟨text, -, -, -, -, default, rfl⟩ := located
      exact ⟨"local", by decide, (), by decide, (), default, rfl⟩
  | redmine =>
      rw [taskInstance] at located ⊢
      exact canonicalInstance_idem laws located
  | forgejo =>
      rw [taskInstance] at located ⊢
      exact canonicalInstance_idem laws located

theorem new_idem (laws : urls.Documented) {provider inst project externalId : String}
    {key : TaskKey} (built : TaskKey.new urls provider inst project externalId = .ok key) :
    TaskKey.new urls key.provider key.inst key.project key.externalId = .ok key := by
  obtain ⟨text, kind, field, parsed, lower, named, numbered, located⟩ := new_ok.mp built
  have spelled := ProviderKind.fromStr_ok parsed
  have stable : validateField kind.asStr "provider" = .ok kind.asStr ∧
      String.ofList (Text.toAsciiLower kind.asStr.toList) = kind.asStr := by
    cases kind <;> decide
  refine new_ok.mpr ⟨key.provider, kind, ?_, parsed, ?_, validateField_idem named,
    validateExternalId_idem numbered, taskInstance_idem laws located⟩
  · rw [spelled, stable.1]
  · rw [spelled, stable.2]

theorem decodeBinding_ok {row : BindingRow} {binding : TaskBinding} :
    decodeBinding urls row = .ok binding ↔
      0 < row.taskId ∧ 0 < row.createdAt ∧
        TaskKey.new urls row.provider row.inst row.project row.externalId = .ok binding.key ∧
        row = binding.key.row binding.taskId binding.createdAt := by
  simp only [decodeBinding, bind_eq_ok, refuse_eq_ok, mapError_eq_ok, Fallible.pure_eq,
    Except.ok.injEq, not_not, not_le]
  constructor
  · rintro ⟨-, numbered, -, dated, key, built, -, rfl, rfl⟩
    exact ⟨numbered, dated, built, rfl⟩
  · obtain ⟨taskId, key, createdAt⟩ := binding
    rintro ⟨numbered, dated, built, rfl⟩
    exact ⟨(), numbered, (), dated, key, built, (), rfl, rfl⟩

theorem decodeBinding_trimmed {row : BindingRow} {binding : TaskBinding}
    (decoded : decodeBinding urls row = .ok binding) :
    trimText binding.key.provider = binding.key.provider ∧
      trimText binding.key.project = binding.key.project := by
  obtain ⟨-, kind, -, parsed, -, named, -⟩ := new_ok.mp (decodeBinding_ok.mp decoded).2.2.1
  constructor
  · rw [ProviderKind.fromStr_ok parsed]
    cases kind <;> decide
  · rw [← (validateField_ok.mp named).1, trimText_trimText]

theorem decodeBinding_row (laws : urls.Documented) {provider inst project externalId : String}
    {key : TaskKey} (built : TaskKey.new urls provider inst project externalId = .ok key)
    {taskId createdAt : Int} (numbered : 0 < taskId) (dated : 0 < createdAt) :
    decodeBinding urls (key.row taskId createdAt) = .ok ⟨taskId, key, createdAt⟩ :=
  decodeBinding_ok.mpr ⟨numbered, dated, new_idem laws built, rfl⟩

theorem new_inj {provider inst project externalId provider' inst' project' externalId' : String}
    {key key' : TaskKey} (built : TaskKey.new urls provider inst project externalId = .ok key)
    (built' : TaskKey.new urls provider' inst' project' externalId' = .ok key')
    (sameProvider : key.provider = key'.provider) (sameInst : key.inst = key'.inst)
    (sameProject : key.project = key'.project)
    (sameNumber : key.externalNumber = key'.externalNumber) :
    key = key' ↔ Text.padding (trimText externalId).toList =
      Text.padding (trimText externalId').toList := by
  obtain ⟨-, -, -, -, -, -, numbered, -⟩ := new_ok.mp built
  obtain ⟨-, -, -, -, -, -, numbered', -⟩ := new_ok.mp built'
  obtain ⟨field, plain, number, parsed, positive, -⟩ := validateExternalId_ok.mp numbered
  obtain ⟨field', plain', number', parsed', -, -⟩ := validateExternalId_ok.mp numbered'
  rw [(validateField_ok.mp field).1, (validateField_ok.mp field').1]
  constructor
  · rintro rfl
    rfl
  · intro padded
    rw [TaskKey.externalNumber, parsed, TaskKey.externalNumber, parsed'] at sameNumber
    obtain rfl : number = number' := Option.some.inj sameNumber
    have text := Text.parseU64_inj parsed parsed' positive plain plain' padded
    cases key
    cases key'
    simp_all [String.toList_inj]

theorem padding_zero {value text : String} (valid : validateExternalId value = .ok text)
    (sign : (trimText value).toList.head? ≠ some '+') : Text.padding (trimText value).toList = 0 := by
  obtain ⟨field, plain, number, parsed, positive, -⟩ := validateExternalId_ok.mp valid
  rw [← (validateField_ok.mp field).1] at plain parsed
  exact Text.padding_unsigned parsed positive plain sign

theorem taskKey_canonical_iff (laws : urls.Documented) :
    (∀ provider inst project externalId key,
      TaskKey.new urls provider inst project externalId = .ok key →
        TaskKey.new urls key.provider key.inst key.project key.externalId = .ok key ∧
          ∀ taskId createdAt, 0 < taskId → 0 < createdAt →
            decodeBinding urls (key.row taskId createdAt) = .ok ⟨taskId, key, createdAt⟩) ∧
      ∀ provider inst project externalId key provider' inst' project' externalId' key',
        TaskKey.new urls provider inst project externalId = .ok key →
        TaskKey.new urls provider' inst' project' externalId' = .ok key' →
        key.provider = key'.provider → key.inst = key'.inst → key.project = key'.project →
        key.externalNumber = key'.externalNumber →
          (key = key' ↔ Text.padding (trimText externalId).toList =
            Text.padding (trimText externalId').toList) ∧
          ((trimText externalId).toList.head? ≠ some '+' →
            (trimText externalId').toList.head? ≠ some '+' → key = key') := by
  constructor
  · intro provider inst project externalId key built
    exact ⟨new_idem laws built, fun _ _ numbered dated => decodeBinding_row laws built numbered dated⟩
  · intro provider inst project externalId key provider' inst' project' externalId' key' built built'
      sameProvider sameInst sameProject sameNumber
    have equal := new_inj built built' sameProvider sameInst sameProject sameNumber
    refine ⟨equal, fun sign sign' => equal.mpr ?_⟩
    obtain ⟨-, -, -, -, -, -, numbered, -⟩ := new_ok.mp built
    obtain ⟨-, -, -, -, -, -, numbered', -⟩ := new_ok.mp built'
    rw [padding_zero numbered sign, padding_zero numbered' sign']

end Keys

section Sample

theorem slashed_key_canonical :
    TaskKey.new forgejoTest "forgejo" "https://forgejo.test" "owner/repo" "7" =
      .ok ⟨"forgejo", "https://forgejo.test", "owner/repo", "7"⟩ :=
  ((taskKey_canonical_iff forgejoTest_documented).1 " Forgejo" "https://forgejo.test/" "owner/repo"
    "7 " ⟨"forgejo", "https://forgejo.test", "owner/repo", "7"⟩ (by decide)).1

theorem plus_sign_splits_task :
    TaskKey.new forgejoTest "local" "local" "default" "5" =
        .ok ⟨"local", "local", "default", "5"⟩ ∧
      TaskKey.new forgejoTest "local" "local" "default" "+5" =
        .ok ⟨"local", "local", "default", "+5"⟩ ∧
      TaskKey.externalNumber ⟨"local", "local", "default", "5"⟩ = some 5 ∧
      TaskKey.externalNumber ⟨"local", "local", "default", "+5"⟩ = some 5 ∧
      (⟨"local", "local", "default", "5"⟩ : TaskKey) ≠ ⟨"local", "local", "default", "+5"⟩ := by
  decide

end Sample

end Phasegent.Task

import ServerSettings.Log.Redaction
import ServerSettings.Proofs.Json.Sorted

/-!
# What the redactor leaves

Redaction replaces what stands under a key that tells of a secret, at every depth, and touches nothing else. Elements of
an array have no key of their own, and the key of the array is not theirs.

* `at?_redact`: a place that no secret key leads to holds the redacted value;
* `step?_redact_secret`: a secret key leads to the text that stands for a secret;
* `sorted_redact`: members may be sorted before or after;
* `redact_exact`: what is seen at every place of a redacted value; redacting it again changes nothing.
-/

namespace ServerSettings.Json

/-- Does the step go to a member whose key tells of a secret? -/
def Step.isSecret : Step → Bool
  | .member _ key => isSensitiveKey key
  | .element _ => false

theorem redact_scalar {v : Json} (scalar : v.isScalar = true) : v.redact = v := by
  cases v <;> first | rfl | cases scalar

theorem face_redact (v : Json) : v.redact.face = v.face := by
  cases v with
  | arr items => rw [redact, face, face, redactItems_eq, List.length_map]
  | obj members =>
    have keys : Dict.keys (redactMembers members) = Dict.keys members := by
      rw [redactMembers_eq, Dict.keys, Dict.keys, List.map_map]
      rfl
    rw [redact, face, face, keys]
  | null | bool | int | float | str => rfl

/-- A step of a redacted value leads to what redaction makes of the value there. -/
theorem step?_redact (v : Json) (step : Step) :
    v.redact.step? step = (v.step? step).map fun w => if step.isSecret then .redacted else w.redact := by
  cases v with
  | arr items =>
    cases step with
    | member => rfl
    | element i =>
      rw [redact, step?, step?, redactItems_eq, List.getElem?_map]
      rfl
  | obj members =>
    cases step with
    | element => rfl
    | member i key =>
      rw [redact, step?, step?, redactMembers_eq, List.getElem?_map]
      cases members[i]? with
      | none => rfl
      | some m =>
        rw [Option.map_some, Option.bind_some, Option.bind_some]
        by_cases same : m.1 = key
        · rw [if_pos same, if_pos same, ← same]
          rfl
        · rw [if_neg same, if_neg same]
          rfl
  | null | bool | int | float | str => cases step <;> rfl

theorem step?_redact_secret {v : Json} {step : Step} (secret : step.isSecret = true) :
    v.redact.step? step = (v.step? step).map fun _ => .redacted := by
  rw [step?_redact]
  simp only [secret, if_true]

/-- A place that no secret key leads to holds the redacted value. -/
theorem at?_redact {path : List Step} (shown : ∀ step ∈ path, step.isSecret = false) (v : Json) :
    v.redact.at? path = (v.at? path).map redact := by
  induction path generalizing v with
  | nil => rfl
  | cons step rest ih =>
    obtain ⟨first, later⟩ := List.forall_mem_cons.mp shown
    rw [at?, at?, step?_redact]
    cases v.step? step with
    | none => rfl
    | some w =>
      simp only [first, Bool.false_eq_true, if_false, Option.map_some, Option.bind_some]
      exact ih later w

/-- The first secret key on the way to a place leads to the text that stands for a secret, which has nothing in it. -/
theorem at?_redact_secret {path : List Step} (shown : ∀ step ∈ path, step.isSecret = false) {step : Step}
    (secret : step.isSecret = true) (v : Json) (rest : List Step) :
    v.redact.at? (path ++ step :: rest) = (v.at? (path ++ [step])).bind fun _ => redacted.at? rest := by
  rw [at?_append, at?_append, at?_redact shown]
  cases v.at? path with
  | none => rfl
  | some w =>
    simp only [Option.map_some, Option.bind_some, at?, step?_redact_secret secret]
    cases w.step? step <;> rfl

theorem redact_redact (v : Json) : v.redact.redact = v.redact := by
  induction v using Json.induction with
  | scalar v scalar => rw [redact_scalar scalar, redact_scalar scalar]
  | arr items each =>
    rw [redact, redact, redactItems_eq, redactItems_eq, List.map_map]
    exact congrArg arr (List.map_congr_left each)
  | obj members each =>
    rw [redact, redact, redactMembers_eq, redactMembers_eq, List.map_map]
    refine congrArg obj (List.map_congr_left fun m mem => ?_)
    dsimp only [Function.comp_apply]
    split
    · rfl
    · rw [each m mem]

theorem sorted_redact (v : Json) : v.redact.sorted = v.sorted.redact := by
  induction v using Json.induction with
  | scalar v scalar => rw [redact_scalar scalar, sorted_scalar scalar, redact_scalar scalar]
  | arr items each =>
    rw [redact, sorted, sorted, redact, redactItems_eq, sortedItems_eq, sortedItems_eq, redactItems_eq, List.map_map,
      List.map_map]
    exact congrArg arr (List.map_congr_left each)
  | obj members each =>
    have arranged := sortMembers_map (fun k v => if isSensitiveKey k then redacted else redact v) members
    rw [redact, sorted_obj, sorted_obj, redact, redactMembers_eq, redactMembers_eq, arranged, Dict.mapValues,
      Dict.mapValues, List.map_map, List.map_map]
    refine congrArg obj (List.map_congr_left fun m mem => ?_)
    have inside := each m ((sortMembers_perm members).subset mem)
    simp only [Function.comp_apply]
    split
    · rfl
    · rw [inside]

theorem strict_redact {v : Json} (strict : Throughout IsStrict v) : Throughout IsStrict v.redact := by
  induction strict with
  | scalar scalar here =>
    rw [redact_scalar scalar]
    exact .scalar scalar here
  | arr _ _ ih =>
    rw [redact, redactItems_eq]
    exact .arr trivial (List.forall_mem_map.mpr ih)
  | @obj members once _ ih =>
    rw [redact, redactMembers_eq]
    refine .obj ?_ (List.forall_mem_map.mpr fun m mem => ?_)
    · rw [IsStrict, Dict.Distinct, Dict.keys, List.map_map]
      exact once
    · dsimp only
      split
      · exact .scalar rfl trivial
      · exact ih m mem

/-- Everything at places that no secret key leads to looks as it did: objects have the same keys in the same order, arrays
are as long, and scalars are the same. What the first secret key on the way leads to is the text that stands for a
secret, and there is nothing below it. Redacting again changes nothing. -/
theorem redact_exact (v : Json) :
    (∀ path : List Step, (∀ step ∈ path, step.isSecret = false) →
      (v.redact.at? path).map face = (v.at? path).map face) ∧
    (∀ (path : List Step) (step : Step), (∀ before ∈ path, before.isSecret = false) → step.isSecret = true →
      v.redact.at? (path ++ [step]) = (v.at? (path ++ [step])).map (fun _ => .str "***REDACTED***") ∧
      ∀ next rest, v.redact.at? (path ++ step :: next :: rest) = none) ∧
    v.redact.redact = v.redact := by
  refine ⟨fun path shown => ?_, fun path step shown secret => ⟨?_, fun next rest => ?_⟩, redact_redact v⟩
  · rw [at?_redact shown, Option.map_map]
    exact congrArg (fun f => (v.at? path).map f) (funext face_redact)
  · rw [at?_redact_secret shown secret]
    cases v.at? (path ++ [step]) <;> rfl
  · rw [at?_redact_secret shown secret, at?_scalar rfl, Option.bind_fun_none]

/-- Hosts, one of them inside an array that stands under the key of a storage group. -/
def hostsWithPasswords : Json :=
  .obj [("mysql", .arr [.obj [("host", .str "db"), ("pass", .obj [("token", .int 1)])]]),
    ("password_login_disable", .bool true)]

theorem redact_exact_inside :
    let inside : List Step := [.member 0 "mysql", .element 0]
    hostsWithPasswords.redact.at? (inside ++ [.member 1 "pass"]) = some (.str "***REDACTED***") ∧
      hostsWithPasswords.redact.at? (inside ++ [.member 1 "pass", .member 0 "token"]) = none ∧
      (hostsWithPasswords.redact.at? inside).map face = some (.object ["host", "pass"]) := by
  intro inside
  obtain ⟨outside, below, _⟩ := redact_exact hostsWithPasswords
  have shown : ∀ step ∈ inside, step.isSecret = false := by decide +kernel
  obtain ⟨secret, nothing⟩ := below inside (.member 1 "pass") shown (by decide +kernel)
  exact ⟨secret, nothing _ [], outside inside shown⟩

end ServerSettings.Json

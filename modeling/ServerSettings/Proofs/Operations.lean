import ServerSettings.Proofs.Decoding
import ServerSettings.Proofs.Edits

/-!
# Runs of operations

* `Operation.after_amends`: an operation amends the settings and may then freeze a group, whether it succeeds or
  fails;
* `Reached`: the settings that operations make of a payload;
* `Reached.keyed`: no map that they hold has a name twice.
-/

namespace ServerSettings

open Settings (Amended)

/-- What a caller can have done to settings. -/
inductive Operation where
  | set (path : String) (value : Value)
  | applyEnvironment (env : Environment)
  | applyDefaults
  | validate (patterns : List (String × Pattern))
  | check
  | replaceKeys (source : RandomSource)
  | resolve (env : Environment) (policy : Policy)
  | freeze (g : Settings.Group)

namespace Operation

/-- The edit that an operation is, without its answer. -/
def edit : Operation → Edit Unit
  | .set path value => Edit.change (·.set path value)
  | .applyEnvironment env => do
    let _ ← Resolution.applyEnvironment env
  | .applyDefaults => do
    let _ ← Resolution.applyDefaults
  | .validate patterns => do
    let _ ← Resolution.validate patterns
  | .check => Resolution.check
  | .replaceKeys source => Keys.replaceAll source
  | .resolve env policy => fun s =>
    let outcome := s.resolve env policy
    (outcome.result.map fun _ => (), outcome.settings)
  | .freeze g => Edit.change (·.freezeGroup g)

/-- The settings behind an operation, whether it succeeded or failed. -/
def after (op : Operation) (s : Settings) : Settings :=
  (op.edit s).2

/-- An operation amends the settings and may then freeze a group. -/
theorem after_amends (op : Operation) (s : Settings) :
    ∃ t, Amended s t ∧ (op.after s = t ∨ ∃ g, t.freezeGroup g = .ok (op.after s)) := by
  have amended {op : Operation} (h : op.edit.Amends) :
      ∃ t, Amended s t ∧ (op.after s = t ∨ ∃ g, t.freezeGroup g = .ok (op.after s)) :=
    ⟨_, h s, .inl rfl⟩
  cases op with
  | set path value => exact amended (.change fun _ _ h => .of_set h)
  | applyEnvironment env => exact amended ((Resolution.applyEnvironment_amends env).bind fun _ => .pure _)
  | applyDefaults => exact amended (Resolution.applyDefaults_amends.bind fun _ => .pure _)
  | validate patterns => exact amended ((Resolution.validate_amends patterns).bind fun _ => .pure _)
  | check => exact amended Resolution.check_amends
  | replaceKeys source => exact amended (Keys.replaceAll_amends source)
  | resolve env policy =>
    obtain ⟨t, amended, ⟨_, _, same⟩ | ⟨_, _, frozen⟩⟩ := Resolution.resolve_amends env policy s
    · exact ⟨t, amended, .inl same⟩
    · exact ⟨t, amended, .inr ⟨.root, congrArg Except.ok frozen.symm⟩⟩
  | freeze g =>
    obtain frozen | same := Edit.change_cases (·.freezeGroup g) s
    · exact ⟨s, .refl s, .inr ⟨g, frozen⟩⟩
    · exact ⟨s, .refl s, .inl same⟩

end Operation

/-- The settings that can be reached from a payload. -/
inductive Reached (payload : Json) : Settings → Prop
  | decoded {s : Settings} (h : Settings.decode payload = .ok s) : Reached payload s
  | step {s : Settings} (before : Reached payload s) (op : Operation) : Reached payload (op.after s)

namespace Settings

variable {s t : Settings}

theorem Keyed.of_amended (keyed : s.Keyed) (h : Amended s t) : t.Keyed where
  options d := by
    rw [h.frame.options]
    exact keyed.options d
  providers := by
    rw [h.frame.providers]
    exact keyed.providers

theorem Keyed.freeze (keyed : s.Keyed) : s.freeze.Keyed where
  options := keyed.options
  providers := keyed.providers.mapValues Provider.freeze

theorem Keyed.withProvider (keyed : s.Keyed) (name : String) (p : Provider) : (s.withProvider name p).Keyed where
  options := keyed.options
  providers := keyed.providers.put name p

theorem Keyed.freezeGroup (keyed : s.Keyed) {g : Group} (h : s.freezeGroup g = .ok t) : t.Keyed := by
  cases g with
  | root =>
    cases h
    exact keyed.freeze
  | database d =>
    cases h
    refine ⟨fun other => ?_, keyed.providers⟩
    dsimp only
    by_cases same : other = d
    · rw [same, replaceAt_self]
      exact keyed.options d
    · rw [replaceAt_of_ne _ _ same]
      exact keyed.options other
  | mappings =>
    cases h
    exact ⟨keyed.options, keyed.providers⟩
  | provider name =>
    obtain ⟨p, _, rfl⟩ := map_ok h
    exact keyed.withProvider name _
  | endpoint name =>
    obtain ⟨p, _, rfl⟩ := map_ok h
    exact keyed.withProvider name _

end Settings

/-- Operations put no name into a map twice. -/
theorem Operation.keyed_after (op : Operation) {s : Settings} (keyed : s.Keyed) : (op.after s).Keyed := by
  obtain ⟨t, amended, same | ⟨g, frozen⟩⟩ := op.after_amends s
  · rw [same]
    exact keyed.of_amended amended
  · exact (keyed.of_amended amended).freezeGroup frozen

theorem Reached.keyed {payload : Json} {s : Settings} (once : payload.Distinct) (h : Reached payload s) :
    s.Keyed := by
  induction h with
  | decoded h => exact Settings.keyed_of_decode once h
  | step _ op ih => exact op.keyed_after ih

end ServerSettings

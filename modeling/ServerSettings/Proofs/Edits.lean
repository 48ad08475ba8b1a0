import ServerSettings.Keys
import ServerSettings.Proofs.Leaves
import ServerSettings.Resolution.Basic

/-!
What each operation on settings does to them. `Edit.Amends` says that an edit changes nothing but leaves of
open groups, however it ends; every operation short of freezing is such an edit.
-/

namespace ServerSettings

open Settings (Amended)

namespace Edit

variable {α β : Type}

theorem bind_apply (x : Edit α) (f : α → Edit β) (s : Settings) :
    (x >>= f) s =
      match x s with
      | (.ok a, t) => f a t
      | (.error e, t) => (.error e, t) := by
  show (ExceptT.bind x f : Edit β) s = _
  simp only [ExceptT.bind, ExceptT.mk, bind, StateT.bind]
  rcases x s with ⟨a | a, t⟩ <;> rfl

theorem bind_ok {x : Edit α} {f : α → Edit β} {s t : Settings} {b : β} (h : (x >>= f) s = (.ok b, t)) :
    ∃ a u, x s = (.ok a, u) ∧ f a u = (.ok b, t) := by
  rw [bind_apply] at h
  rcases first : x s with ⟨e | a, u⟩ <;> rw [first] at h
  · cases h
  · exact ⟨a, u, rfl, h⟩

theorem bind_error {x : Edit α} {f : α → Edit β} {s t : Settings} {e : Error} (h : (x >>= f) s = (.error e, t)) :
    x s = (.error e, t) ∨ ∃ a u, x s = (.ok a, u) ∧ f a u = (.error e, t) := by
  rw [bind_apply] at h
  rcases first : x s with ⟨e' | a, u⟩ <;> rw [first] at h
  · cases h
    exact .inl rfl
  · exact .inr ⟨a, u, rfl, h⟩

theorem get_bind (f : Settings → Edit α) (s : Settings) : ((get : Edit Settings) >>= f) s = f s s := rfl

theorem change_cases (f : Settings → Except Error Settings) (s : Settings) :
    f s = .ok (change f s).2 ∨ (change f s).2 = s := by
  unfold change
  cases f s with
  | ok t => exact .inl rfl
  | error e => exact .inr rfl

/-- However the edit ends, it leaves the settings amended. -/
def Amends (x : Edit α) : Prop := ∀ s, Amended s (x s).2

theorem Amends.amended {x : Edit α} (hx : Amends x) {s t : Settings} {r : Except Error α}
    (h : x s = (r, t)) : Amended s t := by
  have amended := hx s
  rwa [h] at amended

theorem Amends.pure (a : α) : Amends (pure a : Edit α) := fun s => .refl s

theorem Amends.throw (e : Error) : Amends (throw e : Edit α) := fun s => .refl s

theorem Amends.ofExcept (r : Except Error α) : Amends (ofExcept r) := fun s => .refl s

theorem Amends.get : Amends (get : Edit Settings) := fun s => .refl s

theorem Amends.bind {x : Edit α} {f : α → Edit β} (hx : Amends x) (hf : ∀ a, Amends (f a)) :
    Amends (x >>= f) := by
  intro s
  rw [bind_apply]
  have first := hx s
  rcases hs : x s with ⟨e | a, t⟩ <;> rw [hs] at first
  · exact first
  · exact first.trans (hf a t)

theorem Amends.change {f : Settings → Except Error Settings}
    (h : ∀ s t, f s = .ok t → Amended s t) : Amends (change f) := by
  intro s
  obtain done | same := change_cases f s
  · exact h s _ done
  · rw [same]
    exact .refl s

theorem Amends.ite {c : Prop} [Decidable c] {x y : Edit α} (hx : Amends x) (hy : Amends y) :
    Amends (if c then x else y) := by
  split
  · exact hx
  · exact hy

end Edit

namespace Settings

theorem setLeaf_eq (s : Settings) (l : Leaf) (v : Value) :
    s.setLeaf l v =
      match coerce l.path l.kind v with
      | .ok content => l.assign s content
      | .error e => .error e := by
  unfold setLeaf
  cases coerce l.path l.kind v <;> rfl

theorem Amended.of_setLeaf {s t : Settings} {l : Leaf} {v : Value} (h : s.setLeaf l v = .ok t) :
    Amended s t := by
  rw [setLeaf_eq] at h
  cases hc : coerce l.path l.kind v with
  | ok content => rw [hc] at h; exact .of_assign h
  | error e => rw [hc] at h; cases h

theorem set_eq (s : Settings) (path : String) (v : Value) :
    s.set path v =
      match Leaf.ofPath path with
      | .ok l => s.setLeaf l v
      | .error e => .error e := by
  unfold set
  cases Leaf.ofPath path <;> rfl

theorem Amended.of_set {s t : Settings} {path : String} {v : Value} (h : s.set path v = .ok t) :
    Amended s t := by
  rw [set_eq] at h
  cases hl : Leaf.ofPath path with
  | ok l => rw [hl] at h; exact .of_setLeaf h
  | error e => rw [hl] at h; cases h

end Settings

namespace Resolution

open Edit (Amends)

theorem applyVariable_apply (env : Environment) (l : Leaf) (name : String) (s : Settings) :
    applyVariable env l name s =
      if applies s l then
        match env.value? name with
        | some value =>
          match s.setLeaf l (.text value) with
          | .ok t => (.ok true, t)
          | .error e => (.error (blame l.path name e), s)
        | none => (.ok false, s)
      else (.ok false, s) := by
  rw [applyVariable, Edit.get_bind]
  split
  · cases env.value? name with
    | none => rfl
    | some value =>
      simp only [Edit.bind_apply, Edit.change]
      cases s.setLeaf l (.text value) <;> rfl
  · rfl

theorem applyVariable_amends (env : Environment) (l : Leaf) (name : String) :
    Amends (applyVariable env l name) := by
  intro s
  rw [applyVariable_apply]
  split
  · cases env.value? name with
    | none => exact .refl s
    | some value =>
      simp only
      cases hs : s.setLeaf l (.text value) with
      | ok t => exact .of_setLeaf hs
      | error e => exact .refl s
  · exact .refl s

theorem applyVariables_amends (env : Environment) (table : List (Leaf × String)) :
    Amends (applyVariables env table) := by
  induction table with
  | nil => exact .pure _
  | cons entry rest ih =>
    exact (applyVariable_amends env entry.1 entry.2).bind fun _ => ih.bind fun _ => .pure _

theorem applyEnvironment_amends (env : Environment) : Amends (applyEnvironment env) :=
  applyVariables_amends env Tables.overrides

theorem applyDefault_apply (l : Leaf) (value : String) (s : Settings) :
    applyDefault l value s =
      match s.leafText l with
      | .error e => (.error e, s)
      | .ok text =>
        if text = "" then
          match s.setLeaf l (.text value) with
          | .ok t => (.ok true, t)
          | .error e => (.error e, s)
        else (.ok false, s) := by
  rw [applyDefault, Edit.get_bind, Edit.bind_apply, Edit.ofExcept]
  cases s.leafText l with
  | error e => rfl
  | ok text =>
    simp only
    split
    · simp only [Edit.bind_apply, Edit.change]
      cases s.setLeaf l (.text value) <;> rfl
    · rfl

theorem applyDefault_amends (l : Leaf) (value : String) : Amends (applyDefault l value) := by
  intro s
  rw [applyDefault_apply]
  cases s.leafText l with
  | error e => exact .refl s
  | ok text =>
    simp only
    split
    · cases hs : s.setLeaf l (.text value) with
      | ok t => exact .of_setLeaf hs
      | error e => exact .refl s
    · exact .refl s

theorem applyDefaultsOf_amends (table : List (Leaf × String)) : Amends (applyDefaultsOf table) := by
  induction table with
  | nil => exact .pure _
  | cons entry rest ih =>
    exact (applyDefault_amends entry.1 entry.2).bind fun _ => ih.bind fun _ => .pure _

theorem applyDefaults_amends : Amends applyDefaults :=
  applyDefaultsOf_amends Tables.defaults

theorem correctPort_apply (s : Settings) :
    correctPort s =
      if normalizePort (s.text .port) = s.text .port then (.ok (), s)
      else if s.frozen then (.error (.frozen "port"), s)
      else (.ok (), (Leaf.text .port).write s (normalizePort (s.text .port))) := by
  rw [correctPort, Edit.get_bind]
  by_cases same : normalizePort (s.text .port) = s.text .port
  · rw [if_pos same, if_neg (by simpa using same)]
    rfl
  · rw [if_neg same, if_pos same]
    cases mark : s.frozen <;> simp only [Edit.change, Leaf.assign, Leaf.isFinal, mark] <;> rfl

theorem correctPort_amends : Amends correctPort := by
  intro s
  rw [correctPort_apply]
  split
  · exact .refl s
  · cases mark : s.frozen with
    | true => exact .refl s
    | false => exact Amended.write (l := .text .port) _ mark

theorem validate_apply (patterns : List (String × Pattern)) (s : Settings) :
    validate patterns s =
      match correctPort s with
      | (.ok (), t) => (problems t patterns, t)
      | (.error e, t) => (.error e, t) := by
  rw [validate, Edit.bind_apply]
  rcases correctPort s with ⟨_ | _, t⟩ <;> rfl

theorem validate_amends (patterns : List (String × Pattern)) : Amends (validate patterns) :=
  correctPort_amends.bind fun _ => Amends.get.bind fun _ => .ofExcept _

theorem check_apply (s : Settings) :
    check s =
      match validate tablePatterns s with
      | (.ok [], t) => (.ok (), t)
      | (.ok found, t) => (.error (.validation (found.map (·.message))), t)
      | (.error e, t) => (.error e, t) := by
  rw [check, Edit.bind_apply]
  rcases validate tablePatterns s with ⟨e | _ | _, t⟩ <;> rfl

theorem check_amends : Amends check :=
  (validate_amends _).bind fun _ => .ite (.throw _) (.pure _)

theorem validateUnder_amends (policy : Policy) : Amends (validateUnder policy) := by
  cases policy with
  | collect => exact validate_amends _
  | refuse => exact check_amends.bind fun _ => .pure _

/-- How a resolution can go: it stops in one of its three stages, or passes all of them. -/
inductive Course (env : Environment) (policy : Policy) (s : Settings) : Outcome → Prop
  | overriding {e : Error} {t : Settings} (stop : applyEnvironment env s = (.error e, t)) :
      Course env policy s ⟨t, [], .error e⟩
  | filling {applied : List Leaf} {e : Error} {t u : Settings}
      (overridden : applyEnvironment env s = (.ok applied, t))
      (stop : applyDefaults t = (.error e, u)) :
      Course env policy s ⟨u, overrideNotes applied, .error e⟩
  | validating {applied filled : List Leaf} {e : Error} {t u v : Settings}
      (overridden : applyEnvironment env s = (.ok applied, t))
      (defaulted : applyDefaults t = (.ok filled, u))
      (stop : validateUnder policy u = (.error e, v)) :
      Course env policy s ⟨v, overrideNotes applied ++ [.validating], .error e⟩
  | done {applied filled : List Leaf} {found : List Problem} {t u v : Settings}
      (overridden : applyEnvironment env s = (.ok applied, t))
      (defaulted : applyDefaults t = (.ok filled, u))
      (validated : validateUnder policy u = (.ok found, v)) :
      Course env policy s ⟨v.freeze, overrideNotes applied ++ [.validating], .ok found⟩

theorem resolve_course (env : Environment) (policy : Policy) (s : Settings) :
    Course env policy s (s.resolve env policy) := by
  unfold Settings.resolve conclude
  rcases h₁ : applyEnvironment env s with ⟨e | applied, t⟩
  · exact .overriding h₁
  rcases h₂ : applyDefaults t with ⟨e | filled, u⟩
  · simp only [h₂]
    exact .filling h₁ h₂
  simp only [h₂]
  rcases h₃ : validateUnder policy u with ⟨e | found, v⟩
  · exact .validating h₁ h₂ h₃
  · exact .done h₁ h₂ h₃

theorem resolve_ok {env : Environment} {policy : Policy} {s : Settings} {found : List Problem}
    (h : (s.resolve env policy).result = .ok found) :
    ∃ applied filled t u v, applyEnvironment env s = (.ok applied, t) ∧
      applyDefaults t = (.ok filled, u) ∧ validateUnder policy u = (.ok found, v) ∧
      (s.resolve env policy).settings = v.freeze := by
  have course := resolve_course env policy s
  generalize s.resolve env policy = outcome at course h
  cases course with
  | done overridden defaulted validated =>
    cases h
    exact ⟨_, _, _, _, _, overridden, defaulted, validated, rfl⟩
  | _ => cases h

/-- A resolution amends the settings, and freezes them if it gets to its end. -/
theorem resolve_amends (env : Environment) (policy : Policy) (s : Settings) :
    ∃ t, Amended s t ∧
      ((∃ e, (s.resolve env policy).result = .error e ∧ (s.resolve env policy).settings = t) ∨
        ∃ found, (s.resolve env policy).result = .ok found ∧ (s.resolve env policy).settings = t.freeze) := by
  have course := resolve_course env policy s
  generalize s.resolve env policy = outcome at course
  cases course with
  | overriding stop => exact ⟨_, (applyEnvironment_amends env).amended stop, .inl ⟨_, rfl, rfl⟩⟩
  | filling overridden stop =>
    have first := (applyEnvironment_amends env).amended overridden
    exact ⟨_, first.trans (applyDefaults_amends.amended stop), .inl ⟨_, rfl, rfl⟩⟩
  | validating overridden defaulted stop =>
    have first := (applyEnvironment_amends env).amended overridden
    have second := first.trans (applyDefaults_amends.amended defaulted)
    exact ⟨_, second.trans ((validateUnder_amends policy).amended stop), .inl ⟨_, rfl, rfl⟩⟩
  | done overridden defaulted validated =>
    have first := (applyEnvironment_amends env).amended overridden
    have second := first.trans (applyDefaults_amends.amended defaulted)
    exact ⟨_, second.trans ((validateUnder_amends policy).amended validated), .inr ⟨_, rfl, rfl⟩⟩

/-- A resolution that fails has not frozen anything. -/
theorem amended_of_failed {env : Environment} {policy : Policy} {s : Settings} {e : Error}
    (failed : (s.resolve env policy).result = .error e) : Amended s (s.resolve env policy).settings := by
  obtain ⟨t, amended, ⟨_, _, same⟩ | ⟨_, done, _⟩⟩ := resolve_amends env policy s
  · rw [same]
    exact amended
  · rw [done] at failed
    cases failed

end Resolution

namespace Keys

open Edit (Amends)

theorem replaceKey_amends (source : RandomSource) (f : TextSetting) (call : Nat) :
    Amends (replaceKey source f call) :=
  (Amends.ofExcept _).bind fun _ => .change fun _ _ h => .of_assign h

theorem replaceAll_amends (source : RandomSource) : Amends (replaceAll source) := by
  unfold replaceAll
  induction Tables.keys.zipIdx with
  | nil => exact .pure _
  | cons entry rest ih => exact (replaceKey_amends source entry.1 entry.2).bind fun _ => ih

end Keys

end ServerSettings

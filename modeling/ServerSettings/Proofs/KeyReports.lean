import ServerSettings.Proofs.KeyLength
import ServerSettings.Proofs.Secrecy.Reports

/-!
# What validation says of keys that were written from bytes

Bytes are read back from what is written of them, and it is told of as a key exactly if it is too short for one.

* `IsKeyMessage`: a message that is about a key, by how it begins;
* `isComplaint_of_mem`, `complaint_told`: a complaint is of a rule that does not accept a value, and is told even if a later
  value may break validation off;
* `keys_reported`: keys of twenty-eight bytes or more have no message, and shorter ones do.
-/

namespace ServerSettings

/-- How every message about a setting begins. -/
def Problem.opening (path : String) : String :=
  "value of setting " ++ Text.quoted path ++ " is not valid"

/-- A message about a key. -/
def IsKeyMessage (message : String) : Prop :=
  ∃ f ∈ Tables.keys, (Problem.opening f.name).toList <+: message.toList

theorem Rule.opening_complaint (rule : Rule) (path value : String) :
    (Problem.opening path).toList <+: (rule.complaint path value).toList := by
  unfold Rule.complaint Problem.opening
  split
  · exact ⟨_, by simp only [String.toList_append, List.append_assoc]; rfl⟩
  · exact ⟨_, by simp only [String.toList_append, List.append_assoc]; rfl⟩

namespace Resolution

variable {s t : Settings} {rules before after : List (String × Rule)} {path value : String} {rule : Rule}

/-- A path with what is said of its value by a rule that does not accept it. -/
def IsComplaint (s : Settings) (rules : List (String × Rule)) (entry : String × String) : Prop :=
  ∃ rule value, (entry.1, rule) ∈ rules ∧ s.get entry.1 = .ok value ∧ rule.accepts value = false ∧
    entry.2 = rule.complaint entry.1 value

theorem IsComplaint.cons {entry : String × String} {first : String × Rule} (h : IsComplaint s rules entry) :
    IsComplaint s (first :: rules) entry := by
  obtain ⟨rule, value, listed, told⟩ := h
  exact ⟨rule, value, List.mem_cons_of_mem first listed, told⟩

theorem isComplaint_of_mem {entry : String × String} (mem : entry ∈ (complaints s rules).1) :
    IsComplaint s rules entry := by
  induction rules with
  | nil => cases mem
  | cons first rest ih =>
    obtain ⟨path, rule⟩ := first
    rw [complaints] at mem
    cases read : s.get path with
    | error e =>
      rw [read] at mem
      cases mem
    | ok value =>
      rw [read] at mem
      cases accepted : rule.accepts value with
      | true =>
        simp only [accepted, if_true] at mem
        exact (ih mem).cons
      | false =>
        simp only [accepted, Bool.false_eq_true, if_false] at mem
        rcases List.mem_cons.mp mem with rfl | later
        · exact ⟨rule, value, List.mem_cons_self, read, accepted, rfl⟩
        · exact (ih later).cons

/-- Only what cannot be read before it keeps a complaint from being told. -/
theorem complaint_told (readable : ∀ entry ∈ before, ∃ value, s.get entry.1 = .ok value) (read : s.get path = .ok value)
    (refused : rule.accepts value = false) :
    (path, rule.complaint path value) ∈ (complaints s (before ++ (path, rule) :: after)).1 := by
  induction before with
  | nil =>
    rw [List.nil_append, complaints, read]
    simp only [refused, Bool.false_eq_true, if_false]
    exact List.mem_cons_self
  | cons first rest ih =>
    obtain ⟨⟨other, read_first⟩, readable⟩ := List.forall_mem_cons.mp readable
    have told := ih readable
    rw [List.cons_append, complaints, read_first]
    dsimp only
    split
    · exact told
    · exact List.mem_cons_of_mem _ told

/-- What a reporter is told: the complaints, and of keys that cannot be decoded if nothing has broken off. -/
theorem told_cases (s : Settings) (rules : List (String × Rule)) : ∃ failed, ∃ later, later <+: undecodable s failed ∧
    (report rules s).told = (complaints s rules).1.map (·.2) ++ later.map (·.message) := by
  rw [report]
  rcases complaints s rules with ⟨refused, _ | e⟩
  · exact ⟨refused.map (·.1), _, List.prefix_refl _, rfl⟩
  · exact ⟨[], [], List.nil_prefix, (List.append_nil _).symm⟩

/-- No other setting with a pattern has a path that could be taken for that of a key. -/
theorem key_of_opening {entry : String × Pattern} (mem : entry ∈ tablePatterns) {message : String}
    (opens : (Problem.opening entry.1).toList <+: message.toList) (key : IsKeyMessage message) :
    ∃ f ∈ Tables.keys, entry.1 = f.name := by
  obtain ⟨f, key_mem, starts⟩ := key
  have apart : ∀ entry ∈ tablePatterns, ∀ f ∈ Tables.keys, entry.1 = f.name ∨
      ¬(Problem.opening entry.1).toList <+: (Problem.opening f.name).toList ∧
        ¬(Problem.opening f.name).toList <+: (Problem.opening entry.1).toList := by
    decide +kernel
  rcases apart entry mem f key_mem with same | ⟨shorter, longer⟩
  · exact ⟨f, key_mem, same⟩
  · rcases List.prefix_or_prefix_of_prefix opens starts with within | within
    · exact absurd within shorter
    · exact absurd within longer

theorem pattern_of_key {entry : String × Pattern} (mem : entry ∈ tablePatterns) {f : TextSetting} (key : f ∈ Tables.keys)
    (same : entry.1 = f.name) : entry.2 = Tables.keyMaterial := by
  have listed : ∀ entry ∈ tablePatterns, ∀ f ∈ Tables.keys, entry.1 = f.name → entry.2 = Tables.keyMaterial := by
    decide +kernel
  exact listed entry mem f key same

theorem accepts_key (bytes : List UInt8) :
    (Rule.ofPattern Tables.keyMaterial).accepts (Base64.encode bytes) = true ↔ 28 ≤ bytes.length :=
  (Pattern.keyMaterial_matches _).trans (Base64.isKeyText_encode bytes)

section Keys

variable {bytes : List UInt8} (keys : ∀ f ∈ Tables.keys, t.text f = Base64.encode bytes)

include keys

theorem get_key {f : TextSetting} (mem : f ∈ Tables.keys) : t.get f.name = .ok (Base64.encode bytes) :=
  (t.get_path (.text f)).trans (congrArg Except.ok (keys f mem))

/-- The complaint of a short key is told whatever comes after it. -/
theorem short_key_told (short : ¬28 ≤ bytes.length) :
    ∃ entry ∈ (complaints t (rulesOf tablePatterns)).1, IsKeyMessage entry.2 := by
  have hash : TextSetting.cookieHash ∈ Tables.keys := by decide
  have refused : (Rule.ofPattern Tables.keyMaterial).accepts (Base64.encode bytes) = false :=
    Bool.eq_false_iff.mpr fun accepted => short ((accepts_key bytes).mp accepted)
  -- Before the first key come texts only, which never break validation off.
  have readable : ∀ entry ∈ rulesOf (tablePatterns.take 3), ∃ value, t.get entry.1 = .ok value := by
    simp only [rulesOf, tablePatterns, Tables.patterns, List.map_cons, List.take_succ_cons, List.take_zero,
      List.map_nil, List.forall_mem_cons]
    have done : ∀ entry ∈ ([] : List (String × Rule)), ∃ value, t.get entry.1 = .ok value := List.forall_mem_nil _
    exact ⟨⟨_, t.get_path (.text .dialect)⟩, ⟨_, t.get_path (.text .port)⟩, ⟨_, t.get_path (.text .gitClient)⟩, done⟩
  have split : rulesOf tablePatterns = rulesOf (tablePatterns.take 3) ++
      (TextSetting.cookieHash.name, .ofPattern Tables.keyMaterial) :: rulesOf (tablePatterns.drop 4) := rfl
  have opens := (Rule.ofPattern Tables.keyMaterial).opening_complaint TextSetting.cookieHash.name (Base64.encode bytes)
  rw [split]
  exact ⟨_, complaint_told readable (get_key keys hash) refused, .cookieHash, hash, opens⟩

theorem long_key_not_told (long : 28 ≤ bytes.length) {entry : String × String}
    (mem : entry ∈ (complaints t (rulesOf tablePatterns)).1) : ¬IsKeyMessage entry.2 := by
  intro key
  obtain ⟨rule, value, listed, read, refused, said⟩ := isComplaint_of_mem mem
  obtain ⟨⟨path, pattern⟩, pattern_mem, same⟩ := List.mem_map.mp listed
  obtain ⟨rfl, rfl⟩ := Prod.mk.inj same
  have opens : (Problem.opening entry.1).toList <+: entry.2.toList := said ▸ Rule.opening_complaint _ _ _
  obtain ⟨f, key_mem, named⟩ := key_of_opening pattern_mem opens key
  have material : pattern = Tables.keyMaterial := pattern_of_key pattern_mem key_mem named
  have content : value = Base64.encode bytes := by
    rw [named, get_key keys key_mem] at read
    exact (Except.ok.inj read).symm
  rw [material, content, (accepts_key bytes).mpr long] at refused
  cases refused

/-- Once validation has begun, it tells of keys that were written from bytes exactly if these are too few. -/
theorem told_of_keys :
    (∀ message ∈ (report (rulesOf tablePatterns) t).told, ¬IsKeyMessage message) ↔ 28 ≤ bytes.length := by
  obtain ⟨failed, later, within, told⟩ := told_cases t (rulesOf tablePatterns)
  have decodable : undecodable t failed = [] := by
    apply undecodable_eq_nil.mpr
    intro f mem
    rw [keys f mem]
    exact .inr (.inr ⟨bytes, Base64.decode?_encode bytes⟩)
  rw [decodable] at within
  rw [told, List.prefix_nil.mp within, List.map_nil, List.append_nil]
  constructor
  · intro silent
    by_contra short
    obtain ⟨entry, mem, key⟩ := short_key_told keys short
    exact silent entry.2 (List.mem_map_of_mem mem) key
  · intro long message mem
    obtain ⟨entry, complained, rfl⟩ := List.mem_map.mp mem
    exact long_key_not_told keys long complained

end Keys

/-- Of validation that comes to its end, a reporter is told the problems that it finds. -/
theorem told_of_validate {patterns : List (String × Pattern)} {found : List Problem}
    (h : validate patterns s = (.ok found, t)) : (account (rulesOf patterns) s).told = found.map (·.message) := by
  have outcome := account_ofPattern patterns s
  rw [h, Account.outcome] at outcome
  cases done : (account (rulesOf patterns) s).result with
  | error e =>
    rw [done] at outcome
    cases outcome
  | ok count =>
    rw [done] at outcome
    exact (Prod.mk.inj (Except.ok.inj outcome)).1

/-- Bytes are read back from what is written of them. As all keys of some settings, validation tells of them exactly if
there are fewer than twenty-eight, also if a number that cannot be told breaks it off. Only if it cannot begin, as a port
without its colon is not corrected in final settings, nothing is told. -/
theorem keys_reported (bytes : List UInt8) :
    decodeKey? (Base64.encode bytes) = some bytes ∧
      ∀ s : Settings, (∀ f ∈ Tables.keys, s.text f = Base64.encode bytes) →
        (s.frozen = false ∨ normalizePort (s.text .port) = s.text .port →
          ((∀ message ∈ (account (rulesOf tablePatterns) s).told, ¬IsKeyMessage message) ↔ 28 ≤ bytes.length)) ∧
        (∀ found t, validate tablePatterns s = (.ok found, t) →
          ((∀ problem ∈ found, ¬IsKeyMessage problem.message) ↔ 28 ≤ bytes.length)) ∧
        (s.frozen = true → normalizePort (s.text .port) ≠ s.text .port →
          (account (rulesOf tablePatterns) s).told = [] ∧ (validate tablePatterns s).1 = .error (.frozen "port")) := by
  refine ⟨Base64.decode?_encode bytes, fun s keys => ?_⟩
  have begun {t : Settings} (port : correctPort s = (.ok (), t)) :
      (∀ message ∈ (account (rulesOf tablePatterns) s).told, ¬IsKeyMessage message) ↔ 28 ≤ bytes.length := by
    rw [account, port]
    exact told_of_keys fun f mem => (key_of_correctPort port mem).trans (keys f mem)
  refine ⟨fun ready => ?_, fun found t valid => ?_, fun final moves => ?_⟩
  · rcases ready with isOpen | colon
    · obtain ⟨t, port⟩ := correctPort_open isOpen
      exact begun port
    · exact begun (by rw [correctPort_apply, if_pos colon])
  · rw [← begun (validate_ok valid).1, told_of_validate valid, List.forall_mem_map]
  · have stopped : correctPort s = (.error (.frozen "port"), s) := by
      rw [correctPort_apply, if_neg moves, final]
      rfl
    rw [account, validate_apply, stopped]
    exact ⟨rfl, rfl⟩

theorem text_withKeys (key : String) : ∀ f ∈ Tables.keys, (Settings.withKeys key).text f = key := by
  intro f mem
  simp only [Tables.keys, List.mem_cons, List.not_mem_nil, or_false] at mem
  rcases mem with rfl | rfl | rfl <;> rfl

/-- Twenty-eight bytes are as few as a key may have. -/
theorem keys_reported_at_bound :
    let told (length : Nat) := (account (rulesOf tablePatterns)
      (Settings.withKeys (Base64.encode (List.replicate length 0)))).told
    (∀ message ∈ told 28, ¬IsKeyMessage message) ∧ ∃ message ∈ told 27, IsKeyMessage message := by
  intro told
  obtain ⟨long, -⟩ := (keys_reported (List.replicate 28 0)).2 _ (text_withKeys _)
  obtain ⟨short, -⟩ := (keys_reported (List.replicate 27 0)).2 _ (text_withKeys _)
  refine ⟨(long (.inl rfl)).mpr (by decide), ?_⟩
  by_contra silent
  have none_told : ∀ message ∈ told 27, ¬IsKeyMessage message := fun message mem key => silent ⟨message, mem, key⟩
  exact absurd ((short (.inl rfl)).mp none_told) (by decide)

/-- Keys of three bytes each, in final settings whose port has no colon. -/
theorem short_keys_not_reported :
    let s := { Settings.withKeys (Base64.encode [0, 0, 0]) with frozen := true }
    (∀ f ∈ Tables.keys, s.text f = Base64.encode [0, 0, 0]) ∧
      ¬((∀ message ∈ (account (rulesOf tablePatterns) s).told, ¬IsKeyMessage message) ↔
        28 ≤ [(0 : UInt8), 0, 0].length) := by
  intro s
  have silent : (account (rulesOf tablePatterns) s).told = [] := by decide +kernel
  refine ⟨text_withKeys _, fun claimed => ?_⟩
  rw [silent] at claimed
  exact absurd (claimed.mp (List.forall_mem_nil _)) (by decide)

end Resolution

end ServerSettings

import ServerSettings.Proofs.Fixpoint
import ServerSettings.Proofs.KeyLength
import ServerSettings.Proofs.Patterns

/-!
# What resolved settings start a server with

The check vouches for everything that a server takes from its settings but one: no pattern asks anything of the address
under which the server is known, so that address may be one that cannot be taken apart.

* `parse_ok_iff`: an address is taken apart exactly if its authority passes both checks, which it does if there is no
  bracket in the address and no character that hides a delimiter;
* `build_resolved`: with such an address, or without one, resolved settings start a server;
* `build_of_open_bracket`: a bracket that is never closed passes the check, and no server starts.
-/

namespace ServerSettings

namespace Text

theorem mem_of_mem_cut? {sep c : Char} {cs before rest : List Char} (h : cut? sep cs = some (before, rest))
    (mem : c ∈ rest) : c ∈ cs := by
  induction cs generalizing before with
  | nil => cases h
  | cons d cs ih =>
    rw [cut?] at h
    split at h
    · cases h
      exact List.mem_cons_of_mem _ mem
    · obtain ⟨⟨inner, _⟩, cut, same⟩ := Option.map_eq_some_iff.mp h
      cases same
      exact List.mem_cons_of_mem _ (ih cut)

end Text

namespace Url

/-- The authority of an address. -/
def authorityOf (s : String) : List Char :=
  (splitAuthority (splitScheme (clean s.toList)).2).1

/-- No bracket, and no character whose compatibility form has a delimiter in it. -/
def IsPlain (s : String) : Prop :=
  ∀ c ∈ s.toList, c ≠ '[' ∧ c ≠ ']' ∧ hidesDelimiter c = false

instance (s : String) : Decidable (IsPlain s) := List.decidableBAll _ s.toList

theorem mem_of_mem_clean {c : Char} {cs : List Char} (mem : c ∈ clean cs) : c ∈ cs :=
  (List.dropWhile_sublist _).subset (List.mem_filter.mp mem).1

theorem mem_of_mem_splitScheme {c : Char} {cs : List Char} (mem : c ∈ (splitScheme cs).2) : c ∈ cs := by
  unfold splitScheme at mem
  split at mem
  · next cut =>
    split at mem
    · exact Text.mem_of_mem_cut? cut mem
    · exact mem
  · exact mem

theorem mem_of_mem_splitAuthority {c : Char} {cs : List Char} (mem : c ∈ (splitAuthority cs).1) : c ∈ cs := by
  unfold splitAuthority at mem
  split at mem
  · next rest =>
    exact List.mem_cons_of_mem _ (List.mem_cons_of_mem _ ((List.takeWhile_prefix _).subset mem))
  · cases mem

theorem mem_of_mem_authorityOf {c : Char} {s : String} (mem : c ∈ authorityOf s) : c ∈ s.toList :=
  mem_of_mem_clean (mem_of_mem_splitScheme (mem_of_mem_splitAuthority mem))

/-- An address is what it is taken apart into, unless its authority fails one of the checks. -/
theorem parse_eq (s : String) : ∃ url, parse s =
    (checkBrackets (authorityOf s)).bind fun _ => (checkAuthority (authorityOf s)).map fun _ => url := by
  let rest := (splitAuthority (splitScheme (clean s.toList)).2).2
  let front := (Text.cut? '#' rest).getD (rest, [])
  let parts := (Text.cut? '?' front.1).getD (front.1, [])
  let whole : Url :=
    { scheme := String.ofList (splitScheme (clean s.toList)).1
      authority := String.ofList (authorityOf s)
      path := String.ofList parts.1
      query := String.ofList parts.2
      fragment := String.ofList front.2 }
  have course : parse s =
      (checkBrackets (authorityOf s)).bind fun _ => (checkAuthority (authorityOf s)).bind fun _ => .ok whole := rfl
  refine ⟨whole, course.trans ?_⟩
  cases checkBrackets (authorityOf s) with
  | error fault => rfl
  | ok => cases checkAuthority (authorityOf s) <;> rfl

theorem parse_ok_iff (s : String) : (∃ url, parse s = .ok url) ↔
    checkBrackets (authorityOf s) = .ok () ∧ checkAuthority (authorityOf s) = .ok () := by
  obtain ⟨whole, course⟩ := parse_eq s
  rw [course]
  cases checkBrackets (authorityOf s) with
  | error fault => simp [Except.bind]
  | ok => cases checkAuthority (authorityOf s) <;> simp [Except.bind, Except.map]

/-- A plain address is taken apart. -/
theorem parse_plain {s : String} (plain : IsPlain s) : ∃ url, parse s = .ok url := by
  have authority : ∀ c ∈ authorityOf s, c ≠ '[' ∧ c ≠ ']' ∧ hidesDelimiter c = false :=
    fun c mem => plain c (mem_of_mem_authorityOf mem)
  have opening : '[' ∉ authorityOf s := fun mem => (authority _ mem).1 rfl
  have closing : ']' ∉ authorityOf s := fun mem => (authority _ mem).2.1 rfl
  have shown : (authorityOf s).any hidesDelimiter = false :=
    List.any_eq_false.mpr fun c mem => by rw [(authority c mem).2.2]; exact Bool.false_ne_true
  refine (parse_ok_iff s).mpr ⟨?_, ?_⟩
  · rw [checkBrackets, if_neg fun both => opening both.1, if_neg fun either => either.elim opening closing]
  · rw [checkAuthority, shown, if_neg Bool.false_ne_true]

end Url

namespace Startup

variable {s : Settings} {key : List UInt8}

theorem hashKey?_of_decode (given : key ≠ []) (read : decodeKey? (s.text .cookieHash) = some key) :
    hashKey? s = .ok key := by
  obtain ⟨b, more, rfl⟩ := List.exists_cons_of_ne_nil given
  rw [hashKey?, read]

theorem blockKey?_of_decode (filled : s.text .cookieEncryption ≠ "")
    (read : decodeKey? (s.text .cookieEncryption) = some key) : blockKey? s = .ok (some key) := by
  rw [blockKey?, if_neg filled, read]

theorem accessKey?_of_decode (filled : s.text .accessKeyEncryption ≠ "")
    (read : decodeKey? (s.text .accessKeyEncryption) = some key) : accessKey? s = some key := by
  rw [accessKey?, if_neg filled, read]

/-- There is no web address exactly if the setting is empty. -/
theorem webUrl?_none_iff (s : Settings) : webUrl? s = .ok none ↔ s.text .webHost = "" := by
  unfold webUrl?
  by_cases empty : s.text .webHost = ""
  · simp [empty]
  · cases Url.parse (s.text .webHost) <;> simp [empty]

/-- It fails exactly if the setting is not empty and cannot be taken apart. -/
theorem webUrl?_error_iff (s : Settings) (e : Error) : webUrl? s = .error e ↔
    s.text .webHost ≠ "" ∧ ∃ fault, Url.parse (s.text .webHost) = .error fault ∧ e = .url fault.message := by
  unfold webUrl?
  by_cases empty : s.text .webHost = ""
  · simp [empty]
  · cases Url.parse (s.text .webHost) <;> simp [empty, eq_comm]

theorem webUrl?_plain (plain : Url.IsPlain (s.text .webHost)) : ∃ url, webUrl? s = .ok url := by
  unfold webUrl?
  split
  · exact ⟨none, rfl⟩
  · obtain ⟨url, read⟩ := Url.parse_plain plain
    rw [read]
    exact ⟨some url, rfl⟩

end Startup

namespace Resolution

variable {env : Environment} {s t : Settings} {found : List Problem}

/-- What is resolved without a problem was checked. -/
theorem check_of_resolve (h : (s.resolve env .refuse).result = .ok found) :
    ∃ u v, check u = (.ok (), v) ∧ (s.resolve env .refuse).settings = v.freeze := by
  obtain ⟨_, _, _, u, v, _, _, validated, final⟩ := resolve_ok h
  obtain ⟨⟨⟩, w, checked, done⟩ := Edit.bind_ok validated
  cases done
  exact ⟨u, v, checked, final⟩

/-- The port of checked settings is a colon and a numeral. -/
theorem port_of_check (h : check s = (.ok (), t)) : IsPort (t.text .port) := by
  have matched := (problems_eq_nil.mp (problems_of_check h)).1
  have listed : (Leaf.text .port, ⟨[[.char ':', .run Tables.decimalDigits 1 (some 5)]]⟩) ∈ Tables.patterns := by
    simp [Tables.patterns]
  obtain ⟨value, read, matching⟩ := matched _ (mem_tablePatterns listed)
  have content : t.get (Leaf.text .port).path = .ok (t.text .port) := t.get_path (.text .port)
  obtain rfl : t.text .port = value := Except.ok.inj (content.symm.trans read)
  exact (Pattern.port_matches _).mp matching

/-- A key of checked settings is set, and it decodes to a byte at least. -/
theorem some_key_of_check (h : check s = (.ok (), t)) {f : TextSetting} (mem : f ∈ Tables.keys) :
    ∃ key, key ≠ [] ∧ t.text f ≠ "" ∧ decodeKey? (t.text f) = some key := by
  obtain ⟨key, read⟩ := key_of_check h mem
  exact ⟨key, List.ne_nil_of_length_pos (length_pos_of_check h mem read), key_ne_empty_of_check h mem, read⟩

/-- Checked settings hold keys for a server, none of them empty, and only their web address can keep it from starting. -/
theorem build_of_check (h : check s = (.ok (), t)) :
    ∃ hash block access : List UInt8,
      (hash ≠ [] ∧ decodeKey? (t.text .cookieHash) = some hash) ∧
      (block ≠ [] ∧ decodeKey? (t.text .cookieEncryption) = some block) ∧
      (access ≠ [] ∧ decodeKey? (t.text .accessKeyEncryption) = some access) ∧
      Startup.build t.freeze = (Startup.webUrl? t.freeze).map fun url =>
        { hashKey := hash, blockKey := some block, webUrl := url,
          listenAddress := t.text .interface ++ t.text .port, accessKey := some access } := by
  obtain ⟨hash, someHash, _, hashRead⟩ := some_key_of_check h (f := .cookieHash) (by decide)
  obtain ⟨block, someBlock, blockFilled, blockRead⟩ := some_key_of_check h (f := .cookieEncryption) (by decide)
  obtain ⟨access, someAccess, accessFilled, accessRead⟩ := some_key_of_check h (f := .accessKeyEncryption) (by decide)
  refine ⟨hash, block, access, ⟨someHash, hashRead⟩, ⟨someBlock, blockRead⟩, ⟨someAccess, accessRead⟩, ?_⟩
  have hashKey : Startup.hashKey? t.freeze = .ok hash := Startup.hashKey?_of_decode someHash hashRead
  have blockKey : Startup.blockKey? t.freeze = .ok (some block) := Startup.blockKey?_of_decode blockFilled blockRead
  have accessKey : Startup.accessKey? t.freeze = some access := Startup.accessKey?_of_decode accessFilled accessRead
  rw [Startup.build, hashKey, blockKey, accessKey]
  cases Startup.webUrl? t.freeze <;> rfl

end Resolution

open Resolution

/-- Resolved settings start a server with the keys that they hold, none of them empty, and with their interface and
their port as its address. Nothing but the web address can be in the way: it is missing exactly if the setting is
empty, and fails exactly if the setting cannot be taken apart, which a plain address always can. -/
theorem build_resolved {env : Environment} {s : Settings} {found : List Problem}
    (resolved : (s.resolve env .refuse).result = .ok found) :
    let r := (s.resolve env .refuse).settings
    ∃ (hash block access : List UInt8) (port : String),
      (hash ≠ [] ∧ decodeKey? (r.text .cookieHash) = some hash) ∧
      (block ≠ [] ∧ decodeKey? (r.text .cookieEncryption) = some block) ∧
      (access ≠ [] ∧ decodeKey? (r.text .accessKeyEncryption) = some access) ∧
      IsPort port ∧
      Startup.build r = (Startup.webUrl? r).map (fun url =>
        { hashKey := hash, blockKey := some block, webUrl := url, listenAddress := r.text .interface ++ port,
          accessKey := some access }) ∧
      (Startup.webUrl? r = .ok none ↔ r.text .webHost = "") ∧
      (∀ e, Startup.webUrl? r = .error e ↔
        r.text .webHost ≠ "" ∧ ∃ fault, Url.parse (r.text .webHost) = .error fault ∧ e = .url fault.message) ∧
      (Url.IsPlain (r.text .webHost) → ∃ startup, Startup.build r = .ok startup) := by
  intro r
  obtain ⟨u, v, checked, final⟩ := check_of_resolve resolved
  have frozen : r = v.freeze := final
  clear_value r
  subst frozen
  obtain ⟨hash, block, access, hashKey, blockKey, accessKey, built⟩ := build_of_check checked
  refine ⟨hash, block, access, v.text .port, hashKey, blockKey, accessKey, port_of_check checked, built,
    Startup.webUrl?_none_iff _, Startup.webUrl?_error_iff _, fun plain => ?_⟩
  obtain ⟨url, read⟩ := Startup.webUrl?_plain plain
  rw [built, read]
  exact ⟨_, rfl⟩

/-- Settings that pass the check, with an address for the server. -/
def Settings.withWebHost (address : String) : Settings :=
  (Leaf.text .webHost).write (.withKeys "c3Nzc3Nzc3Nzc3Nzc3Nzc3Nzc3Nzc3Nzc3Nzc3Nzc3M=") address

theorem build_resolved_local :
    let s := Settings.withWebHost "http://localhost:3000/ui"
    (s.resolve [] .refuse).result = .ok [] ∧ Url.IsPlain ((s.resolve [] .refuse).settings.text .webHost) ∧
      ∃ startup, Startup.build (s.resolve [] .refuse).settings = .ok startup := by
  intro s
  have resolved : (s.resolve [] .refuse).result = .ok [] := ok_of_toOption (by decide +kernel)
  have text : (s.resolve [] .refuse).settings.text .webHost = "http://localhost:3000/ui" := by decide +kernel
  have plain : Url.IsPlain ((s.resolve [] .refuse).settings.text .webHost) := by
    rw [text]
    decide +kernel
  obtain ⟨_, _, _, _, _, _, _, _, _, _, _, starts⟩ := build_resolved resolved
  exact ⟨resolved, plain, starts plain⟩

/-- An opening bracket without a closing one is no address, and nothing asks for one before a server starts. -/
theorem build_of_open_bracket :
    let s := Settings.withWebHost "http://["
    (s.resolve [] .refuse).result = .ok [] ∧
      Startup.build (s.resolve [] .refuse).settings = .error (.url "Invalid IPv6 URL") := by
  intro s
  have resolved : (s.resolve [] .refuse).result = .ok [] := ok_of_toOption (by decide +kernel)
  have text : (s.resolve [] .refuse).settings.text .webHost = "http://[" := by decide +kernel
  have refused : Url.parse "http://[" = .error .brackets := by decide +kernel
  have failed : Startup.webUrl? (s.resolve [] .refuse).settings = .error (.url "Invalid IPv6 URL") := by
    rw [Startup.webUrl?, text, refused]
    rfl
  obtain ⟨u, v, checked, final⟩ := check_of_resolve resolved
  obtain ⟨_, _, _, _, _, _, built⟩ := build_of_check checked
  refine ⟨resolved, ?_⟩
  rw [final] at failed ⊢
  rw [built, failed]
  rfl

end ServerSettings

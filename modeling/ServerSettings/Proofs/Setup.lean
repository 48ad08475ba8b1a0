import ServerSettings.Proofs.Base64
import ServerSettings.Proofs.Fixpoint
import ServerSettings.Proofs.Loading
import ServerSettings.Proofs.Utf8
import ServerSettings.Setup
import ServerSettings.Startup

/-!
# Setting up and loading

* `Keys.replaceAll_ok`: each key is what the source gave at its call;
* `SetupPlan.build_ok`: what was built is settled, passes the check and holds those keys;
* `Settings.parse_shown`: a file with the text of settings is read as these settings;
* `load_build`: so a server that loads its new file starts with what was built.
-/

namespace ServerSettings

open Settings (Amended)
open Resolution

theorem Edit.change_ok {f : Settings → Except Error Settings} {s t : Settings} (h : change f s = (.ok (), t)) :
    f s = .ok t := by
  unfold change at h
  cases done : f s with
  | error e =>
    rw [done] at h
    cases h
  | ok u =>
    rw [done] at h
    cases h
    rfl

theorem Leaf.assign_ok {s t : Settings} {l : Leaf} {v : l.kind.Content} (h : l.assign s v = .ok t) :
    t = l.write s v := by
  unfold assign at h
  split at h
  · cases h
  · cases h
    rfl

namespace Keys

variable {source : RandomSource} {s t : Settings}

theorem generate_ok {call : Nat} {key : List UInt8} (h : generate (source call) keyLength = .ok key) :
    key = source call keyLength ∧ key.length = keyLength := by
  unfold generate at h
  rw [if_neg (by decide)] at h
  simp only [Int.toNat_natCast] at h
  split at h
  · next length =>
    cases h
    exact ⟨rfl, length⟩
  · cases h

theorem replaceKey_ok {f : TextSetting} {call : Nat} (h : replaceKey source f call s = (.ok (), t)) :
    (source call keyLength).length = keyLength ∧ t.text f = Base64.encode (source call keyLength) ∧
      ∀ l : Leaf, l ≠ .text f → l.read t = l.read s := by
  obtain ⟨key, u, made, changed⟩ := Edit.bind_ok h
  obtain ⟨generated, rfl⟩ := Prod.mk.inj made
  obtain ⟨rfl, length⟩ := generate_ok generated
  obtain rfl := Leaf.assign_ok (Edit.change_ok changed)
  exact ⟨length, Leaf.read_write_self s (.text f) _, fun l other => Leaf.read_write_of_ne s _ other⟩

/-- Each key is what the source gave at its call, as no key is replaced twice, and every other leaf is as before. -/
theorem replaceKeys_ok {table : List (TextSetting × Nat)} (once : (table.map (·.1)).Nodup)
    (h : (table.forM fun p => replaceKey source p.1 p.2) s = (.ok (), t)) :
    (∀ entry ∈ table, (source entry.2 keyLength).length = keyLength ∧
      t.text entry.1 = Base64.encode (source entry.2 keyLength)) ∧
      ∀ l : Leaf, (∀ f ∈ table.map (·.1), l ≠ .text f) → l.read t = l.read s := by
  induction table generalizing s with
  | nil =>
    cases h
    exact ⟨by simp, fun _ _ => rfl⟩
  | cons entry rest ih =>
    obtain ⟨fresh, once⟩ := List.nodup_cons.mp once
    obtain ⟨⟨⟩, u, first, later⟩ := Edit.bind_ok h
    obtain ⟨length, key, others⟩ := replaceKey_ok first
    obtain ⟨keys, kept⟩ := ih once later
    have same : t.text entry.1 = u.text entry.1 := by
      apply kept (.text entry.1)
      rintro f mem ⟨⟩
      exact fresh mem
    refine ⟨List.forall_mem_cons.mpr ⟨⟨length, same.trans key⟩, keys⟩, fun l absent => ?_⟩
    obtain ⟨here, later⟩ := List.forall_mem_cons.mp absent
    exact (kept l later).trans (others l here)

theorem replaceAll_ok (h : replaceAll source s = (.ok (), t)) :
    (∀ entry ∈ Tables.keys.zipIdx, (source entry.2 keyLength).length = keyLength ∧
      t.text entry.1 = Base64.encode (source entry.2 keyLength)) ∧
      ∀ l : Leaf, (∀ f ∈ Tables.keys, l ≠ .text f) → l.read t = l.read s :=
  replaceKeys_ok (by decide) h

/-- Where keys can be assigned, a source that gives what it is asked for is all that their replacement needs. -/
theorem replaceKey_open (isOpen : ∀ l : Leaf, l.isFinal s = false) (f : TextSetting) {call : Nat}
    (full : (source call keyLength).length = keyLength) :
    replaceKey source f call s = (.ok (), (Leaf.text f).write s (Base64.encode (source call keyLength))) := by
  have generated : generate (source call) keyLength = .ok (source call keyLength) := by
    rw [generate, if_neg (by decide)]
    exact if_pos full
  have assigned := Settings.assign_of_open (isOpen (.text f)) (Base64.encode (source call keyLength))
  rw [replaceKey, Edit.bind_apply, Edit.ofExcept, generated]
  simp only [Edit.change, assigned]

theorem replaceKeys_open (isOpen : ∀ l : Leaf, l.isFinal s = false)
    (full : ∀ call, (source call keyLength).length = keyLength) (table : List (TextSetting × Nat)) :
    ∃ t, (table.forM fun p => replaceKey source p.1 p.2) s = (.ok (), t) := by
  induction table generalizing s with
  | nil => exact ⟨s, rfl⟩
  | cons entry rest ih =>
    have replaced := replaceKey_open isOpen entry.1 (full entry.2)
    obtain ⟨t, later⟩ := ih (Settings.open_of_amended isOpen ((replaceKey_amends source _ _).amended replaced))
    refine ⟨t, ?_⟩
    show (replaceKey source entry.1 entry.2 >>= fun _ => rest.forM fun p => replaceKey source p.1 p.2) s = _
    rw [Edit.bind_apply, replaced]
    exact later

theorem replaceAll_open (isOpen : ∀ l : Leaf, l.isFinal s = false)
    (full : ∀ call, (source call keyLength).length = keyLength) : ∃ t, replaceAll source s = (.ok (), t) :=
  replaceKeys_open isOpen full _

end Keys

namespace SetupPlan

variable {plan : SetupPlan} {source : RandomSource} {s : Settings}

theorem fill_amends (plan : SetupPlan) (entries : Dict Value) : (plan.fill entries).Amends := by
  induction entries with
  | nil => exact .pure _
  | cons entry rest ih =>
    rw [fill]
    exact .ite (.bind (.change fun _ _ h => .of_set h) fun _ => ih) ih

theorem keyed_start (plan : SetupPlan) : plan.start.Keyed :=
  ⟨fun _ => List.nodup_nil, List.nodup_nil⟩

/-- The keys are neither filled by a default nor corrected as a port. -/
theorem key_kept {u v w : Settings} {filled : List Leaf} (defaulted : applyDefaults u = (.ok filled, v))
    (port : correctPort v = (.ok (), w)) {f : TextSetting} (mem : f ∈ Tables.keys) : w.text f = u.text f := by
  have without : ∀ f ∈ Tables.keys, f ≠ .port ∧ given? Tables.defaults (.text f) = none := by decide +kernel
  obtain ⟨other, plain⟩ := without f mem
  exact (text_of_correctPort port other).trans (read_of_applyDefaults defaulted plain)

/-- What was built is settled, has no problems and holds the keys of the source. -/
theorem build_ok (h : plan.build source = .ok s) :
    s.Keyed ∧ Settled s ∧ problems s tablePatterns = .ok [] ∧
      ∀ entry ∈ Tables.keys.zipIdx, (source entry.2 Keys.keyLength).length = Keys.keyLength ∧
        s.text entry.1 = Base64.encode (source entry.2 Keys.keyLength) := by
  have edited : plan.edit source plan.start = (.ok (), s) := by
    unfold build at h
    rcases done : plan.edit source plan.start with ⟨e | ⟨⟩, t⟩ <;> rw [done] at h <;> cases h
    rfl
  obtain ⟨⟨⟩, u, filling, edited⟩ := Edit.bind_ok edited
  obtain ⟨⟨⟩, v, keyed, edited⟩ := Edit.bind_ok edited
  obtain ⟨⟨⟩, w, discarded, checked⟩ := Edit.bind_ok edited
  obtain ⟨filled, defaulted⟩ : ∃ filled, applyDefaults v = (.ok filled, w) := by
    obtain ⟨filled, x, defaulted, done⟩ := Edit.bind_ok (f := fun _ => pure ()) (x := applyDefaults) discarded
    cases done
    exact ⟨filled, defaulted⟩
  obtain ⟨port, judged⟩ := validate_ok (check_ok checked)
  have amended := (((fill_amends plan _).amended filling).trans ((Keys.replaceAll_amends source).amended keyed)).trans
    ((applyDefaults_amends.amended defaulted).trans (check_amends.amended checked))
  refine ⟨plan.keyed_start.of_amended amended, settled_of_correctPort (filled_of_applyDefaults defaulted) port, judged, ?_⟩
  intro entry mem
  obtain ⟨length, key⟩ := (Keys.replaceAll_ok keyed).1 entry mem
  have known : entry.1 ∈ Tables.keys := List.fst_mem_of_mem_zipIdx mem
  exact ⟨length, (key_kept defaulted port known).trans key⟩

end SetupPlan

namespace Settings

variable {s : Settings}

/-- The text of settings begins with a brace on a line of its own. -/
theorem shown_cons (s : Settings) : ∃ more, s.shown = '{' :: '\n' :: more :=
  ⟨_, rfl⟩

/-- A file with the text of settings and a line break behind it holds their document. -/
theorem document?_shown (keyed : s.Keyed) (short : Whole.isWritable s.maxParallelTasks = true) :
    ConfigFile.document? (Utf8.encode (s.shown ++ ['\n'])) = some s.toJson := by
  obtain ⟨more, first⟩ := s.shown_cons
  have text : Encoding.decodeDetected (Utf8.encode (s.shown ++ ['\n'])) = .ok (s.shown ++ ['\n']) := by
    rw [first]
    exact Encoding.decodeDetected_encode (by decide) (by decide)
  have document : Json.readChars {} (s.shown ++ ['\n']) = .ok s.toJson :=
    Json.readChars_write rfl digits_room (legible keyed short) (by decide) (Json.ends_cons [] (by decide)) rfl
  rw [ConfigFile.document?, text]
  simp only [document]
  rfl

/-- It is read as these settings, with every mark off. -/
theorem parse_shown (keyed : s.Keyed) (short : Whole.isWritable s.maxParallelTasks = true) (file : String) :
    ConfigFile.parse file (Utf8.encode (s.shown ++ ['\n'])) = .ok s.thaw :=
  (ConfigFile.parse_document (document?_shown keyed short) file).trans s.decode_toJson

end Settings

namespace ConfigFile

variable {σ : Type} [Host (StateM σ)]

theorem readFile_ok_of {p : PathName} {k : σ} {bytes : List UInt8} {s : Settings} (clean : p.hasNull = false)
    (content : ((Host.read p : StateM σ _) k).1 = .ok bytes) (parsed : parse p.text bytes = .ok s) :
    ((readFile p : StateM σ _) k).1 = .ok s := by
  unfold readFile
  rcases answer : (Host.read p : StateM σ _) k with ⟨result, k'⟩
  rw [answer] at content
  cases content
  simp only [clean, Bool.false_eq_true, if_false, run_bind answer]
  exact parsed

end ConfigFile

namespace Startup

variable {s : Settings} {bytes : List UInt8}

theorem encode_ne_empty (given : bytes ≠ []) : Base64.encode bytes ≠ "" := by
  intro empty
  have back := Base64.decode?_encode bytes
  rw [empty] at back
  exact given (Option.some.inj back).symm

theorem hashKey?_encode (given : bytes ≠ []) (key : s.text .cookieHash = Base64.encode bytes) :
    hashKey? s = .ok bytes := by
  have read : decodeKey? (s.text .cookieHash) = some bytes := by rw [key, decodeKey?, Base64.decode?_encode]
  obtain ⟨b, more, rfl⟩ := List.exists_cons_of_ne_nil given
  rw [hashKey?, read]

theorem blockKey?_encode (given : bytes ≠ []) (key : s.text .cookieEncryption = Base64.encode bytes) :
    blockKey? s = .ok (some bytes) := by
  rw [blockKey?, key, if_neg (encode_ne_empty given), decodeKey?, Base64.decode?_encode]

theorem accessKey?_encode (given : bytes ≠ []) (key : s.text .accessKeyEncryption = Base64.encode bytes) :
    accessKey? s = some bytes := by
  rw [accessKey?, key, if_neg (encode_ne_empty given), decodeKey?, Base64.decode?_encode]

end Startup

open ConfigFile

/-- What was built for a new server is loaded from the file that holds its text and a line break: without an
environment loading succeeds with final settings of the same document, and the server is given the first three keys of
the source. -/
theorem load_build {σ : Type} [Host (StateM σ)] {plan : SetupPlan} {source : RandomSource} {s : Settings}
    (built : plan.build source = .ok s) :
    ∃ text, s.render = .ok text ∧
      ∀ (file directory : Option String) (k k' : σ) (notes : List Note) (p : PathName),
        (locate file [] directory : StateM σ _) k = (⟨notes, .ok p⟩, k') → p.hasNull = false →
        ((Host.read p : StateM σ _) k').1 = .ok (Utf8.encode (text ++ "\n").toList) →
        ∃ t, ((load file [] directory .refuse : StateM σ _) k).1.result = .ok (t, []) ∧
          t.isFinal = true ∧ t.toJson = s.toJson ∧
          Startup.hashKey? t = .ok (source 0 Keys.keyLength) ∧
          Startup.blockKey? t = .ok (some (source 1 Keys.keyLength)) ∧
          Startup.accessKey? t = some (source 2 Keys.keyLength) := by
  obtain ⟨keyed, settled, judged, keys⟩ := SetupPlan.build_ok built
  have short := writable_of_problems judged
  refine ⟨_, Settings.render_eq keyed short, ?_⟩
  intro file directory k k' notes p located clean content
  have bytes : (String.ofList s.shown ++ "\n").toList = s.shown ++ ['\n'] := by
    rw [String.toList_append, String.toList_ofList]
    rfl
  rw [bytes] at content
  have read := readFile_ok_of clean content (Settings.parse_shown keyed short p.text)
  -- The copy that is read holds what was built, so nothing is left but to find no problem and to freeze.
  have judged_copy : Policy.refuse.verdict (problems s.thaw tablePatterns) = .ok [] := by
    rw [problems_congr s.read_thaw, judged]
    rfl
  have settled_copy := settled.congr s.read_thaw
  have resolved : s.thaw.resolve [] .refuse = ⟨s.thaw.freeze, [.validating], .ok []⟩ := by
    rw [resolve_settled settled_copy, conclude_ok settled_copy.port judged_copy]
    rfl
  have given (call : Nat) (length : (source call Keys.keyLength).length = Keys.keyLength) :
      source call Keys.keyLength ≠ [] := by
    intro empty
    rw [empty] at length
    cases length
  obtain ⟨length₀, key₀⟩ := keys (.cookieHash, 0) (by decide)
  obtain ⟨length₁, key₁⟩ := keys (.cookieEncryption, 1) (by decide)
  obtain ⟨length₂, key₂⟩ := keys (.accessKeyEncryption, 2) (by decide)
  refine ⟨s.thaw.freeze, ?_, Settings.isFinal_iff.mpr s.thaw.final_freeze, ?_, ?_, ?_, ?_⟩
  · rw [load_read located read, resolved]
    rfl
  · rw [Settings.toJson_freeze, Settings.toJson_thaw]
  · exact Startup.hashKey?_encode (given 0 length₀) key₀
  · exact Startup.blockKey?_encode (given 1 length₁) key₁
  · exact Startup.accessKey?_encode (given 2 length₂) key₂

/-- A machine with a file of settings in the directory that the program runs in. -/
def Machine.withConfig (bytes : List UInt8) : Machine where
  files := [([Tables.fileName], .file bytes)]

theorem load_build_mysql :
    let plan : SetupPlan := { dialect := .mysql, values := [("hostname", .text "db"), ("password", .text "\"ü\n")] }
    let source : RandomSource := fun call length => List.replicate length (UInt8.ofNat call)
    ∃ s text t, plan.build source = .ok s ∧ s.render = .ok text ∧
      ((load none [] none .refuse : StateM Machine _)
        (.withConfig (Utf8.encode (text ++ "\n").toList))).1.result = .ok (t, []) ∧
      t.toJson = s.toJson ∧ Startup.hashKey? t = .ok (List.replicate 32 0) ∧
      Startup.accessKey? t = some (List.replicate 32 2) := by
  intro plan source
  have built : (plan.build source).toOption.isSome = true := by decide +kernel
  cases done : plan.build source with
  | error e =>
    rw [done] at built
    cases built
  | ok s =>
    obtain ⟨text, render, loads⟩ := load_build (σ := Machine) done
    let k := Machine.withConfig (Utf8.encode (text ++ "\n").toList)
    have located : (locate none [] none : StateM Machine _) k = (⟨[], .ok ⟨.root, [Tables.fileName]⟩⟩, k) := by rfl
    have content : ((Host.read ⟨.root, [Tables.fileName]⟩ : StateM Machine _) k).1 =
        .ok (Utf8.encode (text ++ "\n").toList) := by rfl
    obtain ⟨t, loaded, _, same, hash, _, access⟩ := loads none none k k [] _ located (by decide) content
    exact ⟨s, text, t, rfl, render, loaded, same, hash, access⟩

end ServerSettings

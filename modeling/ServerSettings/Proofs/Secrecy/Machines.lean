import Mathlib.Data.List.Forall2
import ServerSettings.Proofs.Loading
import ServerSettings.Proofs.Secrecy.Layers

/-!
# Loading without regard to secrets

* `Machine.Alike`: two machines with the same files, homes and variables, but for the secrets in documents and in
  the variables over secrets;
* `Machine.find_alike`: a name leads to the same place on both;
* `Paired`: two runs that leave their machines as they are and give related results;
* `load_paired`: loading fails alike on both, or gives settings that are masked alike with the same problems.
-/

namespace ServerSettings

open ConfigFile (document?)

/-- The same node, or two files with documents that are masked alike. -/
inductive Node.Alike : Node → Node → Prop
  | refl (n : Node) : Alike n n
  | documents {bytes bytes' : List UInt8} {v v' : Json} (left : document? bytes = some v)
      (right : document? bytes' = some v') (same : Settings.maskDocument v = Settings.maskDocument v') :
      Alike (.file bytes) (.file bytes')

/-- The same names, with nodes that are alike. -/
def FileTree.Alike (t t' : FileTree) : Prop :=
  List.Forall₂ (fun entry entry' => entry.1 = entry'.1 ∧ Node.Alike entry.2 entry'.2) t t'

/-- Two machines that differ in secrets only. What they give as random bytes and as time may differ too. -/
structure Machine.Alike (k k' : Machine) : Prop where
  files : FileTree.Alike k.files k'.files
  directory : k.directory = k'.directory
  environment : Environment.Alike k.environment k'.environment
  homes : k.homes = k'.homes

/-- The same failure, or related results. -/
inductive Matching {ε α : Type} (R : α → α → Prop) : Except ε α → Except ε α → Prop
  | error (e : ε) : Matching R (.error e) (.error e)
  | ok {a b : α} (related : R a b) : Matching R (.ok a) (.ok b)

namespace Matching

variable {ε α β : Type} {R S : α → α → Prop} {x y : Except ε α}

/-- Results that become equal are the same failure, or values that become equal. -/
theorem of_map {f : α → β} (h : x.map f = y.map f) : Matching (fun a b => f a = f b) x y := by
  cases x with
  | error e =>
    cases y with
    | error e' =>
      cases h
      exact .error e
    | ok b => cases h
  | ok a =>
    cases y with
    | error e' => cases h
    | ok b => exact .ok (Except.ok.inj h)

/-- What holds of the values may be added to their relation. -/
theorem imp (h : Matching R x y) (stronger : ∀ a b, x = .ok a → y = .ok b → R a b → S a b) : Matching S x y := by
  cases h with
  | error e => exact .error e
  | ok related => exact .ok (stronger _ _ rfl rfl related)

end Matching

namespace FileTree

/-- The same place with nodes that are alike. -/
structure Found.Alike (f g : Found) : Prop where
  place : f.place = g.place
  node : Option.Rel Node.Alike f.node g.node

variable {t t' : FileTree}

theorem node?_alike (alike : Alike t t') (place : List String) :
    Option.Rel Node.Alike (t.node? place) (t'.node? place) := by
  unfold node?
  split
  · exact .some (.refl _)
  · induction alike with
    | nil => exact .none
    | @cons entry entry' rest rest' first _ ih =>
      rw [List.find?_cons, List.find?_cons, ← first.1]
      cases decide (entry.1 = place) with
      | true => exact .some first.2
      | false => exact ih

/-- A walk ends in the same place of both trees. -/
theorem walk_alike (alike : Alike t t') (purpose : Purpose) (fuel links : Nat) (directory parts : List String) :
    Matching Found.Alike (t.walk purpose fuel links directory parts) (t'.walk purpose fuel links directory parts) := by
  induction fuel generalizing links directory parts with
  | zero => exact .error _
  | succ fuel ih =>
    cases parts with
    | nil => exact .ok ⟨rfl, .some (.refl _)⟩
    | cons part rest =>
      simp only [walk]
      split
      · exact ih links directory rest
      split
      · exact ih links directory.dropLast rest
      split
      · exact .error _
      split
      · exact .error _
      have nodes := node?_alike alike (directory ++ [part])
      generalize t.node? (directory ++ [part]) = node at nodes
      generalize t'.node? (directory ++ [part]) = node' at nodes
      cases nodes with
      | none =>
        simp only
        split
        · exact .ok ⟨rfl, .none⟩
        · exact .error _
      | @some here there nodes =>
        cases nodes with
        | refl =>
          cases here with
          | directory => exact ih links _ rest
          | file content =>
            simp only
            split
            · exact .ok ⟨rfl, .some (.refl _)⟩
            · exact .error _
          | link target =>
            simp only
            split
            · exact .ok ⟨rfl, .some (.refl _)⟩
            split
            · exact .error _
            split
            · exact .error _
            · exact ih _ _ _
        | documents left right same =>
          simp only
          split
          · exact .ok ⟨rfl, .some (.documents left right same)⟩
          · exact .error _

end FileTree

namespace Machine

variable {k k' : Machine}

/-- A name leads to the same place on both machines. -/
theorem find_alike (alike : Alike k k') (purpose : FileTree.Purpose) (p : PathName) :
    Matching FileTree.Found.Alike (k.find purpose p) (k'.find purpose p) := by
  unfold find
  rw [← alike.directory]
  split
  · exact .error _
  split
  · cases k.directory with
    | some directory => exact FileTree.walk_alike alike.files _ _ _ _ _
    | none =>
      simp only
      split
      · exact .ok ⟨rfl, .some (.refl _)⟩
      · exact .error _
  · exact FileTree.walk_alike alike.files _ _ _ _ _

theorem status_alike (alike : Alike k k') (p : PathName) : k.status p = k'.status p := by
  unfold status
  have found := find_alike alike .look p
  generalize k.find .look p = here at found
  generalize k'.find .look p = there at found
  cases found with
  | error refusal => rfl
  | @ok found found' related =>
    obtain ⟨-, nodes⟩ := related
    simp only
    generalize found.node = node at nodes
    generalize found'.node = node' at nodes
    cases nodes with
    | none => rfl
    | some nodes => cases nodes <;> rfl

/-- A name is read as the same bytes, or as documents that are masked alike. -/
theorem read_alike (alike : Alike k k') (p : PathName) :
    Matching (fun bytes bytes' => Node.Alike (.file bytes) (.file bytes')) (k.read p) (k'.read p) := by
  unfold read
  have found := find_alike alike .look p
  generalize k.find .look p = here at found
  generalize k'.find .look p = there at found
  cases found with
  | error refusal => exact .error _
  | @ok found found' related =>
    obtain ⟨-, nodes⟩ := related
    simp only
    generalize found.node = node at nodes
    generalize found'.node = node' at nodes
    cases nodes with
    | none => exact .error _
    | @some here _ nodes =>
      cases nodes with
      | refl =>
        cases here with
        | file content => exact .ok (.refl _)
        | directory => exact .error _
        | link target => exact .error _
      | documents left right same => exact .ok (.documents left right same)

end Machine

namespace ConfigFile

/-- Two results of reading a file: the same failure, or fresh settings that are masked alike. -/
abbrev ReadAlike : Except Error Settings → Except Error Settings → Prop :=
  Matching fun s t => s.Fresh ∧ t.Fresh ∧ s.mask = t.mask

/-- Documents that are masked alike are decoded alike, but for secrets. -/
theorem parse_documents {bytes bytes' : List UInt8} {v v' : Json} (left : document? bytes = some v)
    (right : document? bytes' = some v') (same : Settings.maskDocument v = Settings.maskDocument v') (name : String) :
    Matching (fun s t => s.mask = t.mask) (parse name bytes) (parse name bytes') := by
  rw [parse_document left, parse_document right]
  have decoded : (Settings.decode v).map Settings.mask = (Settings.decode v').map Settings.mask := by
    rw [← Settings.decode_mask, same, Settings.decode_mask]
  cases v with
  | obj members =>
    cases v' with
    | obj members' => exact .of_map decoded
    | _ => cases same
  | _ =>
    cases v' with
    | obj members' => cases same
    | _ => exact .error _

/-- Files that are alike are read as settings that are masked alike, or fail alike. -/
theorem parse_alike {bytes bytes' : List UInt8} (alike : Node.Alike (.file bytes) (.file bytes')) (name : String) :
    ReadAlike (parse name bytes) (parse name bytes') := by
  have matching : Matching (fun s t => s.mask = t.mask) (parse name bytes) (parse name bytes') := by
    cases alike with
    | refl => exact .of_map rfl
    | documents left right same => exact parse_documents left right same name
  exact matching.imp fun s t parsed parsed' same => ⟨fresh_of_parse parsed, fresh_of_parse parsed', same⟩

end ConfigFile

/-- Two runs that leave their machines as they are and give related results. -/
def Paired {α : Type} (k k' : Machine) (R : α → α → Prop) (x x' : StateM Machine α) : Prop :=
  ∃ a a', x k = (a, k) ∧ x' k' = (a', k') ∧ R a a'

namespace Paired

variable {α β : Type} {k k' : Machine} {R : α → α → Prop} {S : β → β → Prop}

theorem pure {a a' : α} (related : R a a') : Paired k k' R (pure a) (pure a') :=
  ⟨a, a', rfl, rfl, related⟩

theorem bind {x x' : StateM Machine α} {f f' : α → StateM Machine β} (first : Paired k k' R x x')
    (later : ∀ a a', R a a' → Paired k k' S (f a) (f' a')) : Paired k k' S (x >>= f) (x' >>= f') := by
  obtain ⟨a, a', here, there, related⟩ := first
  obtain ⟨b, b', next, next', related⟩ := later a a' related
  exact ⟨b, b', (ConfigFile.run_bind here).trans next, (ConfigFile.run_bind there).trans next', related⟩

/-- Behind equal results both runs go on with the same value. -/
theorem bind_eq {x x' : StateM Machine α} {f f' : α → StateM Machine β} (first : Paired k k' Eq x x')
    (later : ∀ a, Paired k k' S (f a) (f' a)) : Paired k k' S (x >>= f) (x' >>= f') :=
  first.bind fun a _ same => same ▸ later a

end Paired

section Runs

variable {k k' : Machine} (alike : Machine.Alike k k')

include alike

theorem environment_paired :
    Paired k k' Environment.Alike (Host.environment : StateM Machine _) Host.environment :=
  ⟨_, _, rfl, rfl, alike.environment⟩

theorem home_paired (user : Option String) : Paired k k' Eq (Host.home user : StateM Machine _) (Host.home user) :=
  ⟨_, _, rfl, rfl, congrArg (fun homes => user.bind (Dict.lookup homes)) alike.homes⟩

theorem ownHome_paired : Paired k k' Eq (Host.ownHome : StateM Machine _) Host.ownHome := by
  refine (environment_paired alike).bind fun env env' same => ?_
  rw [same "HOME" (by decide)]
  cases Dict.lookup env' "HOME" with
  | some home => exact .pure rfl
  | none => exact home_paired alike none

theorem expandHome_paired (p : PathName) : Paired k k' Eq (Host.expandHome p : StateM Machine _) (Host.expandHome p) := by
  unfold Host.expandHome
  split
  · split
    · dsimp only
      split
      · exact (ownHome_paired alike).bind_eq fun _ => .pure rfl
      · exact (home_paired alike _).bind_eq fun _ => .pure rfl
    · exact .pure rfl
  · exact .pure rfl

theorem workingDirectory_paired :
    Paired k k' Eq (Host.workingDirectory : StateM Machine _) Host.workingDirectory := by
  have there := alike.directory
  unfold Paired Host.workingDirectory
  simp only [instHostStateMMachine]
  rw [← there]
  cases k.directory with
  | some directory => exact ⟨_, _, rfl, rfl, rfl⟩
  | none => exact ⟨_, _, rfl, rfl, rfl⟩

theorem status_paired (p : PathName) : Paired k k' Eq (Host.status p : StateM Machine _) (Host.status p) :=
  ⟨_, _, rfl, rfl, Machine.status_alike alike p⟩

theorem read_paired (p : PathName) :
    Paired k k' (Matching fun bytes bytes' => Node.Alike (.file bytes) (.file bytes'))
      (Host.read p : StateM Machine _) (Host.read p) :=
  ⟨_, _, rfl, rfl, Machine.read_alike alike p⟩

end Runs

namespace ConfigFile

section Stages

variable {k k' : Machine} (alike : Machine.Alike k k')

include alike

theorem searchDirectory_paired (directory : Option String) :
    Paired k k' Eq (searchDirectory directory : StateM Machine _) (searchDirectory directory) := by
  unfold searchDirectory
  cases directory with
  | some name => exact .pure rfl
  | none =>
    refine (workingDirectory_paired alike).bind_eq fun result => ?_
    cases result with
    | ok p => exact .pure rfl
    | error refusal => exact .pure rfl

theorem firstPresent_paired (ps : List PathName) :
    Paired k k' Eq (firstPresent ps : StateM Machine _) (firstPresent ps) := by
  induction ps with
  | nil => exact .pure rfl
  | cons p rest ih =>
    unfold firstPresent
    split
    · exact .pure rfl
    · refine (status_paired alike p).bind_eq fun result => ?_
      cases result with
      | ok kind => exact .pure rfl
      | error refusal =>
        dsimp only
        split
        · exact ih.bind_eq fun _ => .pure rfl
        · exact .pure rfl

/-- The file is found in the same place. -/
theorem locate_paired (file : Option String) (directory : Option String) {env env' : Environment}
    (same : env.Alike env') :
    Paired k k' Eq (locate file env directory : StateM Machine _) (locate file env' directory) := by
  unfold locate
  rw [same.value? (by decide : Tables.fileVariable ∉ secretVariables)]
  cases (file.filter (· ≠ "")).or (env'.value? Tables.fileVariable) with
  | some name => exact (expandHome_paired alike _).bind_eq fun _ => .pure rfl
  | none =>
    refine (searchDirectory_paired alike directory).bind_eq fun result => ?_
    cases result with
    | error e => exact .pure rfl
    | ok base => exact firstPresent_paired alike _

theorem readFile_paired (p : PathName) :
    Paired k k' ReadAlike (readFile p : StateM Machine _) (readFile p) := by
  unfold readFile
  split
  · exact .pure (.error _)
  · refine (read_paired alike p).bind fun result result' related => ?_
    cases related with
    | error refusal => cases refusal <;> exact .pure (.error _)
    | ok same => exact .pure (parse_alike same p.text)

/-- Two outcomes of loading: the same failure, or settings that are masked alike with the same problems. -/
def LoadAlike (n n' : Noted Loaded) : Prop :=
  Matching (fun a b => a.1.mask = b.1.mask ∧ a.2 = b.2) n.result n'.result

/-- Loading fails alike on both machines, or gives settings that are masked alike with the same problems. -/
theorem load_paired (file : Option String) (directory : Option String) (policy : Policy) {env env' : Environment}
    (same : env.Alike env') :
    Paired k k' LoadAlike (load file env directory policy : StateM Machine _) (load file env' directory policy) := by
  unfold load
  refine (locate_paired alike file directory same).bind_eq fun located => ?_
  cases located.result with
  | error e => exact .pure (.error e)
  | ok p =>
    refine (readFile_paired alike p).bind fun result result' read => ?_
    cases read with
    | error e => exact .pure (.error e)
    | @ok s t related =>
      obtain ⟨left, right, masked⟩ := related
      obtain ⟨results, ends⟩ := Resolution.resolve_alike same masked left right policy
      refine .pure ?_
      unfold LoadAlike
      simp only [← results]
      cases done : (s.resolve env policy).result with
      | error e => exact .error e
      | ok found => exact .ok ⟨ends found done, rfl⟩

end Stages

end ConfigFile

end ServerSettings

import ServerSettings.Proofs.Json.Numeral
import ServerSettings.Proofs.Json.Places

/-!
# Sorted values

To write members by their names is to write a value whose members are sorted, at every depth. What is sorted no longer
tells in which order its members came.

* `sortMembers_eq_of_perm`: members with different names are sorted alike, in whatever order they come;
* `write_sorted`: a layout that sorts writes the sorted value;
* `ordered_sorted`: in a sorted value the names of every object increase;
* `readsAs_strict`: a value of finite and short numbers that has no name twice is read back from its text.
-/

namespace ServerSettings.Json

section Members

variable {α β : Type}

theorem sortMembers_map (change : String → α → β) (members : Dict α) :
    sortMembers (members.map fun m => (m.1, change m.1 m.2)) =
      (sortMembers members).map fun m => (m.1, change m.1 m.2) :=
  (List.map_mergeSort (f := fun m : String × α => (m.1, change m.1 m.2)) fun _ _ _ _ => rfl).symm

theorem sortMembers_perm (members : Dict α) : (sortMembers members).Perm members :=
  List.mergeSort_perm members _

theorem pairwise_sortMembers (members : Dict α) : (sortMembers members).Pairwise fun a b => a.1 ≤ b.1 := by
  have sorted := @List.pairwise_mergeSort (String × α) (fun a b => decide (a.1 ≤ b.1))
    (fun a b c first second => decide_eq_true (String.le_trans (of_decide_eq_true first) (of_decide_eq_true second)))
    (fun a b => by simpa using String.le_total a.1 b.1) members
  exact sorted.imp of_decide_eq_true

/-- There is one order of members with different names. -/
theorem eq_of_sorted {members others : Dict α} (once : Dict.Distinct members)
    (sorted : members.Pairwise fun a b => a.1 ≤ b.1) (sorted' : others.Pairwise fun a b => a.1 ≤ b.1)
    (perm : members.Perm others) : members = others := by
  refine perm.eq_of_pairwise (fun a b mem mem' le ge => ?_) sorted sorted'
  have key := String.le_antisymm le ge
  have value := Dict.lookup_of_mem once mem
  rw [key, Dict.lookup_of_mem once (perm.symm.subset mem')] at value
  exact Prod.ext key (Option.some.inj value).symm

/-- Members with different names are sorted alike, in whatever order they come. -/
theorem sortMembers_eq_of_perm {members others : Dict α} (once : Dict.Distinct members) (perm : members.Perm others) :
    sortMembers members = sortMembers others := by
  have same := (sortMembers_perm members).trans (perm.trans (sortMembers_perm others).symm)
  exact eq_of_sorted (once.perm (sortMembers_perm members).symm) (pairwise_sortMembers members)
    (pairwise_sortMembers others) same

/-- The names of sorted members increase if none is there twice. -/
theorem increasing_sortMembers {members : Dict α} (once : Dict.Distinct members) :
    (Dict.keys (sortMembers members)).Pairwise (· < ·) := by
  have once' := once.perm (sortMembers_perm members).symm
  have different : (sortMembers members).Pairwise fun a b => a.1 ≠ b.1 := List.pairwise_map.mp once'
  refine List.pairwise_map.mpr (((pairwise_sortMembers members).and different).imp fun {a b} both => ?_)
  exact String.not_le.mp fun ge => both.2 (String.le_antisymm both.1 ge)

/-- Members whose names increase are what sorting makes of them. -/
theorem sortMembers_eq_of_increasing {members others : Dict α} (increasing : (Dict.keys others).Pairwise (· < ·))
    (perm : members.Perm others) : sortMembers members = others := by
  have once : Dict.Distinct others := increasing.imp String.ne_of_lt
  have sorted : others.Pairwise fun a b => a.1 ≤ b.1 := 
    (List.pairwise_map.mp increasing).imp fun less => String.not_lt.mp (String.lt_asymm less)
  exact (eq_of_sorted once sorted (pairwise_sortMembers members) (perm.symm.trans (sortMembers_perm members).symm)).symm

end Members

section Values

mutual

/-- The value with the members of all objects in the order of their names. -/
def sorted : Json → Json
  | .arr items => .arr (sortedItems items)
  | .obj members => .obj (sortMembers (sortedMembers members))
  | v => v

def sortedItems : List Json → List Json
  | [] => []
  | v :: rest => sorted v :: sortedItems rest

def sortedMembers : List (String × Json) → List (String × Json)
  | [] => []
  | (k, v) :: rest => (k, sorted v) :: sortedMembers rest

end

theorem sortedItems_eq (items : List Json) : sortedItems items = items.map sorted := by
  induction items with
  | nil => rfl
  | cons v rest ih => rw [sortedItems, ih, List.map_cons]

theorem sortedMembers_eq (members : Dict Json) : sortedMembers members = Dict.mapValues sorted members := by
  induction members with
  | nil => rfl
  | cons entry rest ih => rw [sortedMembers, ih]; rfl

theorem sorted_scalar {v : Json} (scalar : v.isScalar = true) : v.sorted = v := by
  cases v <;> first | rfl | cases scalar

theorem sorted_obj (members : Dict Json) : (obj members).sorted = .obj (Dict.mapValues sorted (sortMembers members)) := by
  rw [sorted, sortedMembers_eq]
  exact congrArg obj (sortMembers_map (fun _ => sorted) members)

/-- A layout that sorts members writes the sorted value. -/
theorem write_sorted (step : Option Nat) (v : Json) (level : Nat) :
    write ⟨step, true⟩ level v = write ⟨step, false⟩ level v.sorted := by
  induction v using Json.induction generalizing level with
  | scalar v scalar =>
    rw [sorted_scalar scalar]
    cases v <;> first | rfl | cases scalar
  | arr items each =>
    have parts : items.map (write ⟨step, true⟩ (level + 1)) = items.map (write ⟨step, false⟩ (level + 1) ∘ sorted) :=
      List.map_congr_left fun v mem => each v mem (level + 1)
    rw [sorted, write, write, writeItems_eq, writeItems_eq, sortedItems_eq, List.map_map, parts]
    rfl
  | obj members each =>
    have arranged : sortMembers (writeMembers ⟨step, true⟩ (level + 1) members) =
        writeMembers ⟨step, false⟩ (level + 1) (Dict.mapValues sorted (sortMembers members)) := by
      rw [writeMembers_eq, writeMembers_eq, Dict.mapValues, List.map_map,
        sortMembers_map fun k v => writeString k ++ Layout.colon ⟨step, true⟩ ++ write ⟨step, true⟩ (level + 1) v]
      refine List.map_congr_left fun m mem => ?_
      rw [each m ((sortMembers_perm members).subset mem)]
      rfl
    rw [sorted_obj, write, write, Layout.arrange, if_pos rfl, arranged]
    rfl

end Values

section Strict

/-- A whole number that is short enough to be written, a finite number, an object without a name twice, or anything
else. -/
def IsStrict : Json → Prop
  | .int n => Whole.isWritable n = true
  | .float x => x.isFinite = true
  | .obj members => Dict.Distinct members
  | _ => True

/-- Do the names of an object's members increase? -/
def IsOrdered : Json → Prop
  | .obj members => (Dict.keys members).Pairwise (· < ·)
  | _ => True

variable {v : Json}

theorem strict_sorted (strict : Throughout IsStrict v) : Throughout IsStrict v.sorted := by
  induction strict with
  | scalar scalar here =>
    rw [sorted_scalar scalar]
    exact .scalar scalar here
  | arr _ _ ih =>
    rw [sorted, sortedItems_eq]
    exact .arr trivial (List.forall_mem_map.mpr ih)
  | @obj members once _ ih =>
    rw [sorted_obj]
    exact .obj ((Dict.Distinct.perm once (sortMembers_perm members).symm).mapValues sorted)
      (List.forall_mem_map.mpr fun m mem => ih m ((sortMembers_perm members).subset mem))

theorem strict_of_sorted (strict : Throughout IsStrict v.sorted) : Throughout IsStrict v := by
  induction v using Json.induction with
  | scalar v scalar => rwa [sorted_scalar scalar] at strict
  | arr items each =>
    rw [sorted, sortedItems_eq] at strict
    cases strict with
    | arr _ parts => exact .arr trivial fun v mem => each v mem (parts v.sorted (List.mem_map_of_mem mem))
    | scalar scalar => cases scalar
  | obj members each =>
    have perm := sortMembers_perm members
    rw [sorted_obj] at strict
    cases strict with
    | obj once parts =>
      rw [IsStrict, Dict.Distinct, Dict.keys_mapValues] at once
      refine .obj (Dict.Distinct.perm once perm) fun m mem => each m mem ?_
      exact parts (m.1, m.2.sorted) (List.mem_map.mpr ⟨m, perm.symm.subset mem, rfl⟩)
    | scalar scalar => cases scalar

theorem ordered_sorted (strict : Throughout IsStrict v) : Throughout IsOrdered v.sorted := by
  induction strict with
  | @scalar v scalar _ =>
    rw [sorted_scalar scalar]
    exact .scalar scalar (by cases v <;> trivial)
  | arr _ _ ih =>
    rw [sorted, sortedItems_eq]
    exact .arr trivial (List.forall_mem_map.mpr ih)
  | @obj members once _ ih =>
    have increasing := increasing_sortMembers once
    rw [sorted_obj]
    refine .obj ?_ (List.forall_mem_map.mpr fun m mem => ih m ((sortMembers_perm members).subset mem))
    rwa [IsOrdered, Dict.keys_mapValues]

theorem isWritable_of_strict (strict : Throughout IsStrict v) : isWritable v = true := by
  induction strict with
  | @scalar v scalar here =>
    cases v with
    | int n => exact here
    | arr | obj => cases scalar
    | null | bool | float | str => rfl
  | arr _ _ ih => exact areWritable_of_each ih
  | obj _ _ ih => exact membersAreWritable_of_each ih

theorem finite_of_strict (strict : Throughout IsStrict v) :
    Throughout (fun w => ∀ x, w = .float x → x.isFinite = true) v := by
  induction strict with
  | scalar scalar here => exact .scalar scalar fun x eq => by rwa [eq] at here
  | arr _ _ ih => exact .arr (fun _ eq => by cases eq) ih
  | obj _ _ ih => exact .obj (fun _ eq => by cases eq) ih

end Strict

section Reading

mutual

/-- What a value is read as from its text: numbers with fractions as their texts are. -/
def reread : Json → Json
  | .float x => .float x.reread
  | .arr items => .arr (rereadItems items)
  | .obj members => .obj (rereadMembers members)
  | v => v

def rereadItems : List Json → List Json
  | [] => []
  | v :: rest => reread v :: rereadItems rest

def rereadMembers : List (String × Json) → List (String × Json)
  | [] => []
  | (k, v) :: rest => (k, reread v) :: rereadMembers rest

end

theorem rereadItems_eq (items : List Json) : rereadItems items = items.map reread := by
  induction items with
  | nil => rfl
  | cons v rest ih => rw [rereadItems, ih, List.map_cons]

theorem rereadMembers_eq (members : Dict Json) : rereadMembers members = Dict.mapValues reread members := by
  induction members with
  | nil => rfl
  | cons entry rest ih => rw [rereadMembers, ih]; rfl

mutual

/-- How deep arrays and objects are nested. -/
def depth : Json → Nat
  | .arr items => depthOfItems items + 1
  | .obj members => depthOfMembers members + 1
  | _ => 0

def depthOfItems : List Json → Nat
  | [] => 0
  | v :: rest => max (depth v) (depthOfItems rest)

def depthOfMembers : List (String × Json) → Nat
  | [] => 0
  | (_, v) :: rest => max (depth v) (depthOfMembers rest)

end

theorem depth_le_of_mem {items : List Json} : ∀ v ∈ items, v.depth ≤ depthOfItems items := by
  induction items with
  | nil => exact fun _ mem => absurd mem List.not_mem_nil
  | cons v rest ih =>
    rw [depthOfItems]
    exact List.forall_mem_cons.mpr ⟨Nat.le_max_left .., fun w mem => Nat.le_trans (ih w mem) (Nat.le_max_right ..)⟩

theorem depth_le_of_mem_members {members : Dict Json} : ∀ m ∈ members, m.2.depth ≤ depthOfMembers members := by
  induction members with
  | nil => exact fun _ mem => absurd mem List.not_mem_nil
  | cons m rest ih =>
    rw [depthOfMembers]
    exact List.forall_mem_cons.mpr ⟨Nat.le_max_left .., fun n mem => Nat.le_trans (ih n mem) (Nat.le_max_right ..)⟩

variable {l : Layout} {limits : Limits} {d : Nat}

theorem readsAs_float {x : Binary64} (finite : x.isFinite = true) :
    ReadsAs l limits d (.float x) (.float x.reread) :=
  readsAs_number (fun _ => writeFloat_finite finite) (beginsNumber_text finite) fun _ ends => Binary64.readNumber_text limits finite ends

/-- A value of finite and short numbers that has no name twice is read back from its text. -/
theorem readsAs_strict (plain : l.sorted = false) (room : ∀ k, limits.digits = some k → digitLimit ≤ k) {v : Json}
    (strict : Throughout IsStrict v) : ReadsAs l limits v.depth v v.reread := by
  induction strict with
  | @scalar v scalar here =>
    cases v with
    | null => exact readsAs_null
    | bool b => exact readsAs_bool b
    | int n => exact readsAs_int room here
    | float x => exact readsAs_float here
    | str s => exact readsAs_str s
    | arr | obj => cases scalar
  | arr _ _ ih =>
    rw [reread, rereadItems_eq, depth]
    exact readsAs_items fun v mem => (ih v mem).mono (depth_le_of_mem v mem)
  | obj once _ ih =>
    rw [reread, rereadMembers_eq, depth]
    exact readsAs_members plain once fun m mem => (ih m mem).mono (depth_le_of_mem_members m mem)

/-- The text of an object is read back. -/
theorem read_members (plain : l.sorted = false) (room : ∀ k, limits.digits = some k → digitLimit ≤ k)
    {members : Dict Json} (strict : Throughout IsStrict (.obj members)) (deep : depth (.obj members) ≤ limits.depth) :
    read (String.ofList (write l 0 (.obj members))) limits = .ok (.obj (Dict.mapValues reread members)) := by
  have back := readsAs_strict (l := l) plain room strict
  obtain ⟨more, first⟩ := enclose_cons l 0 '{' '}' ((l.arrange (writeMembers l (0 + 1) members)).map (·.2))
  rw [reread, rereadMembers_eq] at back
  refine back.read deep ?_
  rw [write, first]
  exact fun mark => absurd (Option.some.inj mark) (by decide)

end Reading

end ServerSettings.Json

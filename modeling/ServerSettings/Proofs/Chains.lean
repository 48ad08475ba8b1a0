import Mathlib.Data.List.Chain
import Mathlib.Data.List.Nodup
import Mathlib.Data.List.Perm.Subperm
import ServerSettings.Incident

/-!
# The failures that led to a failure

Failures are linked, and the links may form circles. The chain from one of them on is what its links lead to, each failure
once.

* `Course`: what makes a list of failures the one that the links lead through;
* `Course.unique`: there is one at most;
* `chainFrom_course`: the walk lists it, as it cannot take more steps than there are failures;
* `chain_routed`: so the walk ends by itself, and the exit code tells whether a failure in the chain is the operator's.
-/

namespace ServerSettings

namespace Incident

/-- One failure led to another: it is the cause of that, or else it was being handled and is not suppressed. -/
def Leads (all : List Incident) (place next : Nat) : Prop :=
  ∃ i, all[place]? = some i ∧
    (i.cause = some next ∨ i.cause = none ∧ i.isSuppressed = false ∧ i.context = some next)

/-- Every link is to a failure in the list. -/
def Closed (all : List Incident) : Prop :=
  ∀ i ∈ all, ∀ next, i.cause = some next ∨ i.context = some next → next < all.length

/-- The failures that the links lead through from a place on, without those that were seen before. It goes on as long as
there is one that is new. -/
structure Course (all : List Incident) (seen : List Nat) (start : Nat) (places : List Nat) : Prop where
  first : places.head? = some start
  once : places.Nodup
  fresh : ∀ place ∈ places, place ∉ seen
  linked : places.IsChain (Leads all)
  complete : ∀ last ∈ places.getLast?, ∀ next, Leads all last next → next ∈ places ∨ next ∈ seen

/-- An incident that tells of an error, whatever it is linked to. -/
def Tells (i : Incident) (e : Error) : Prop :=
  i = { ofError e with cause := i.cause, context := i.context, isSuppressed := i.isSuppressed }

variable {all : List Incident} {seen places : List Nat} {start place next : Nat}

theorem leads_iff : Leads all place next ↔ ∃ i, all[place]? = some i ∧ i.next = some next := by
  refine exists_congr fun i => and_congr_right fun _ => ?_
  unfold Incident.next
  cases i.cause <;> cases i.isSuppressed <;> simp

theorem Closed.lt (closed : Closed all) (leads : Leads all place next) : next < all.length := by
  obtain ⟨i, at_place, cause | ⟨-, -, context⟩⟩ := leads
  · exact closed i (List.mem_of_getElem? at_place) next (.inl cause)
  · exact closed i (List.mem_of_getElem? at_place) next (.inr context)

theorem Leads.unique {other : Nat} (leads : Leads all place next) (also : Leads all place other) : next = other := by
  obtain ⟨i, here, next_eq⟩ := leads_iff.mp leads
  obtain ⟨j, there, other_eq⟩ := leads_iff.mp also
  obtain rfl : i = j := Option.some.inj (here.symm.trans there)
  exact Option.some.inj (next_eq.symm.trans other_eq)

namespace Course

theorem stop (fresh : place ∉ seen) (ends : ∀ next, Leads all place next → next ∈ place :: seen) :
    Course all seen place [place] where
  first := rfl
  once := List.nodup_singleton place
  fresh := by simpa using fresh
  linked := .singleton place
  complete := by
    intro last final next leads
    obtain rfl : place = last := by simpa using final
    simpa using ends next leads

theorem go (fresh : place ∉ seen) (leads : Leads all place next) (rest : Course all (place :: seen) next places) :
    Course all seen place (place :: places) := by
  have new : ∀ p ∈ places, p ≠ place ∧ p ∉ seen := fun p mem => by simpa using rest.fresh p mem
  cases places with
  | nil => exact absurd rest.first nofun
  | cons p more =>
    obtain rfl : p = next := by simpa using rest.first
    constructor
    · rfl
    · exact List.nodup_cons.mpr ⟨fun mem => (new place mem).1 rfl, rest.once⟩
    · intro q mem
      rcases List.mem_cons.mp mem with rfl | later
      · exact fresh
      · exact (new q later).2
    · exact .cons_cons leads rest.linked
    · intro last final next leads
      have later := rest.complete last (by simpa using final) next leads
      simp only [List.mem_cons] at later ⊢
      tauto

/-- It stops at its first place, or goes on from the next. -/
theorem start_cases (course : Course all seen place places) : place ∉ seen ∧
    (places = [place] ∧ (∀ next, Leads all place next → next ∈ place :: seen) ∨
      ∃ next rest, places = place :: rest ∧ Leads all place next ∧ Course all (place :: seen) next rest) := by
  cases places with
  | nil => exact absurd course.first nofun
  | cons p rest =>
    obtain rfl : p = place := by simpa using course.first
    refine ⟨course.fresh p List.mem_cons_self, ?_⟩
    cases rest with
    | nil =>
      refine .inl ⟨rfl, fun next leads => ?_⟩
      simpa using course.complete p rfl next leads
    | cons next more =>
      have once := List.nodup_cons.mp course.once
      have linked := List.isChain_cons_cons.mp course.linked
      refine .inr ⟨next, next :: more, rfl, linked.1, rfl, once.2, ?_, linked.2, ?_⟩
      · intro q mem before
        rcases List.mem_cons.mp before with rfl | old
        · exact once.1 mem
        · exact course.fresh q (List.mem_cons_of_mem p mem) old
      · intro last final after leads
        have later := course.complete last (by simpa using final) after leads
        simp only [List.mem_cons] at later ⊢
        tauto

/-- Each failure has one successor at most, and the course goes on while it can. -/
theorem unique {others : List Nat} (course : Course all seen place places) (other : Course all seen place others) :
    places = others := by
  induction places generalizing seen place others with
  | nil => exact absurd course.first nofun
  | cons p rest ih =>
    obtain ⟨-, ⟨stops, ends⟩ | ⟨next, more, goes, leads, later⟩⟩ := course.start_cases
    · obtain ⟨-, ⟨rfl, -⟩ | ⟨next, more, -, leads, later⟩⟩ := other.start_cases
      · exact stops
      · exact absurd (ends next leads) later.start_cases.1
    · obtain ⟨-, ⟨-, ends⟩ | ⟨after, others, rfl, also, behind⟩⟩ := other.start_cases
      · exact absurd (ends next leads) later.start_cases.1
      · obtain ⟨rfl, rfl⟩ := List.cons.inj goes
        obtain rfl := leads.unique also
        rw [ih later behind]

end Course

theorem chainFrom_seen (mem : place ∈ seen) (fuel : Nat) : chainFrom all fuel seen place = [] := by
  cases fuel with
  | zero => rfl
  | succ fuel => exact if_pos mem

/-- With as many steps as there are failures still unseen, and one more, the walk goes through all the links. -/
theorem chainFrom_course (closed : Closed all) (fuel : Nat) (inside : place < all.length) (fresh : place ∉ seen)
    (once : seen.Nodup) (known : ∀ p ∈ seen, p < all.length) (enough : all.length < fuel + seen.length) :
    Course all seen place (chainFrom all fuel seen place) := by
  induction fuel generalizing seen place with
  | zero =>
    -- As many places were seen, none of them twice, as there are failures, and this is one more.
    have few : seen.length ≤ (List.range all.length).length :=
      (List.subperm_of_subset once fun p mem => List.mem_range.mpr (known p mem)).length_le
    rw [List.length_range] at few
    omega
  | succ fuel ih =>
    have here : all[place]? = some all[place] := List.getElem?_eq_getElem inside
    cases follows : all[place].next with
    | none =>
      simp only [chainFrom, if_neg fresh, here, follows]
      apply Course.stop fresh
      intro next leads
      obtain ⟨i, also, next_eq⟩ := leads_iff.mp leads
      obtain rfl : all[place] = i := Option.some.inj (here.symm.trans also)
      rw [follows] at next_eq
      cases next_eq
    | some next =>
      simp only [chainFrom, if_neg fresh, here, follows]
      have leads : Leads all place next := leads_iff.mpr ⟨all[place], here, follows⟩
      -- The walk goes on to a place that was seen, and only there lists nothing more.
      by_cases old : next ∈ place :: seen
      · rw [chainFrom_seen old]
        apply Course.stop fresh
        intro other also
        rwa [also.unique leads]
      · apply Course.go fresh leads
        apply ih (closed.lt leads) old (List.nodup_cons.mpr ⟨fresh, once⟩)
        · intro p mem
          rcases List.mem_cons.mp mem with rfl | earlier
          · exact inside
          · exact known p earlier
        · simp only [List.length_cons]
          omega

theorem chain_course (closed : Closed all) (inside : start < all.length) {fuel : Nat} (enough : all.length < fuel) :
    Course all [] start (chainFrom all fuel [] start) :=
  chainFrom_course closed fuel inside List.not_mem_nil .nil (fun _ mem => absurd mem List.not_mem_nil) enough

theorem isConfigurationAt_iff :
    isConfigurationAt all place = true ↔ ∃ i, all[place]? = some i ∧ i.isConfiguration = true := by
  simp only [isConfigurationAt, Option.any_eq_true]

theorem route_number : (route all start).number = 2 ∨ (route all start).number = 3 := by
  unfold route
  split
  · exact .inl rfl
  · exact .inr rfl

theorem route_number_iff :
    (route all start).number = 2 ↔ ∃ place ∈ chain all start, ∃ i, all[place]? = some i ∧ i.isConfiguration = true := by
  simp only [← isConfigurationAt_iff, ← List.any_eq_true, route]
  split <;> simp [ExitCode.number, *]

/-- The chain of a failure is all that its links lead through, and the walk along them ends by itself, whether or not they
form a circle. The exit code is 2 if a failure in the chain is one of the configuration, and else 3, as it is for a defect in
a table of settings unless another failure in its chain is the operator's to mend. -/
theorem chain_routed (closed : Closed all) (inside : start < all.length) :
    (∀ places, Course all [] start places ↔ places = chain all start) ∧
      (∀ fuel, all.length < fuel → chainFrom all fuel [] start = chain all start) ∧
      ((route all start).number = 2 ↔ ∃ place ∈ chain all start, ∃ i, all[place]? = some i ∧ i.isConfiguration = true) ∧
      ((route all start).number = 2 ∨ (route all start).number = 3) ∧
      ∀ path reason, all[start].Tells (.address path reason) →
        (∀ place ∈ (chain all start).tail, isConfigurationAt all place = false) → (route all start).number = 3 := by
  have course : Course all [] start (chain all start) := chain_course closed inside (Nat.lt_succ_self _)
  refine ⟨?_, ?_, route_number_iff, route_number, ?_⟩
  · exact fun places => ⟨fun also => also.unique course, fun same => same ▸ course⟩
  · intro fuel enough
    exact (chain_course closed inside enough).unique course
  · intro path reason tells others
    apply route_number.resolve_left
    intro mended
    obtain ⟨place, mem, i, here, mine⟩ := route_number_iff.mp mended
    obtain ⟨rest, split⟩ : ∃ rest, chain all start = start :: rest := List.head?_eq_some_iff.mp course.first
    rw [split] at mem others
    rcases List.mem_cons.mp mem with rfl | later
    · obtain rfl : all[place] = i := Option.some.inj ((List.getElem?_eq_getElem inside).symm.trans here)
      rw [tells] at mine
      cases mine
    · have clean := others place later
      rw [isConfigurationAt_iff.mpr ⟨i, here, mine⟩] at clean
      cases clean

/-- Two failures each of which is the cause of the other, and one that hides that the first was being handled. -/
def circle : List Incident :=
  [{ ofError (.address "port." .emptySegment) with cause := some 1 },
    { ofError (.backend .notFound) with cause := some 0, context := some 2 },
    { ofError (.address "host" .group) with context := some 0, isSuppressed := true }]

theorem chain_routed_circle :
    (∀ places, Course circle [] 0 places ↔ places = [0, 1]) ∧ (route circle 0).number = 2 ∧
      (route circle 2).number = 3 := by
  have closed : Closed circle := by
    simp only [Closed, circle, ofError, List.mem_cons, List.not_mem_nil, or_false]
    rintro i (rfl | rfl | rfl) next link <;> simp at link ⊢ <;> omega
  obtain ⟨courses, -, configuration, -⟩ := chain_routed closed (show 0 < circle.length by decide)
  obtain ⟨-, -, -, -, defect⟩ := chain_routed closed (show 2 < circle.length by decide)
  have walked : chain circle 0 = [0, 1] := by decide
  rw [walked] at courses configuration
  exact ⟨courses, configuration.mpr ⟨1, by decide, _, rfl, rfl⟩, defect "host" .group rfl (by decide)⟩

end Incident

end ServerSettings

import JavaOutline.Proofs.MemberOrder
import Mathlib.Data.List.Perm.Basic

/-!
# JavaOutline.Proofs.MemberSorts

The lists of fields, constructors, methods, elements and nested types of a declaration tell which
members it has and in which order those of each sort stand, and nothing else.

Each of the lists holds the members of its sort (`Declaration.ofSort_eq_filter`). Members up to
swaps of neighbours of different sorts are a trace, in which members of different sorts commute,
and the lists are its projections. Swaps leave all of them as they are
(`Member.filter_sort_eq_of_reaches`). Conversely, members with the same lists are some swaps apart
(`Member.reaches_of_filter_sort_eq`): the first of the ones is the first of its sort among the
others, so it only has members of other sorts to pass on its way to the front.
-/

namespace JavaOutline

namespace Member

/-! ## Moving members -/

theorem Swaps.cons {ms ms' : List Member} (h : Swaps ms ms') (m : Member) :
    Swaps (m :: ms) (m :: ms') := by
  cases h with
  | swap before after hsort => exact .swap (m :: before) after hsort

theorem reaches_cons {ms ms' : List Member} (h : Relation.ReflTransGen Swaps ms ms')
    (m : Member) : Relation.ReflTransGen Swaps (m :: ms) (m :: ms') :=
  h.lift (m :: ·) fun _ _ hswap => hswap.cons m

/-- A member passes members of other sorts, with a swap for each of them. -/
theorem reaches_passed (m : Member) {before : List Member} (after : List Member)
    (h : ∀ x ∈ before, x.sort ≠ m.sort) :
    Relation.ReflTransGen Swaps (m :: (before ++ after)) (before ++ m :: after) := by
  induction before with
  | nil => exact .refl
  | cons x before ih =>
      obtain ⟨hx, hbefore⟩ := List.forall_mem_cons.mp h
      have hpass : Swaps (m :: x :: (before ++ after)) (x :: m :: (before ++ after)) :=
        .swap [] (before ++ after) hx.symm
      exact .head hpass (reaches_cons (ih hbefore) x)

/-! ## Members of one sort -/

/-- Any number of swaps keep the members of each sort and their order. -/
theorem filter_sort_eq_of_reaches {ms ms' : List Member}
    (h : Relation.ReflTransGen Swaps ms ms') (s : MemberSort) :
    ms'.filter (·.sort = s) = ms.filter (·.sort = s) := by
  induction h with
  | refl => rfl
  | tail _ hswap ih =>
      rw [← ih, ← List.filterMap_eq_filter]
      exact filterMap_eq_of_swaps (s := s) (fun m hm => by simp [hm]) hswap

/-- **Members that agree sort by sort are swaps apart**, by induction on the first ones. -/
theorem reaches_of_filter_sort_eq {ms ms' : List Member}
    (h : ∀ s, ms'.filter (·.sort = s) = ms.filter (·.sort = s)) :
    Relation.ReflTransGen Swaps ms ms' := by
  induction ms generalizing ms' with
  | nil =>
      have hnone : ∀ m, m ∉ ms' := fun m hm => by
        simpa using List.filter_eq_nil_iff.mp (h m.sort) m hm
      rw [List.eq_nil_iff_forall_not_mem.mpr hnone]
  | cons m ms ih =>
      -- What stands in front of the first of the same sort is passed; the rest agrees again.
      have hsort : ms'.filter (·.sort = m.sort) = m :: ms.filter (·.sort = m.sort) := by
        simp [h]
      obtain ⟨before, after, rfl, hbefore, -, hafter⟩ := List.filter_eq_cons_iff.mp hsort
      have hothers : ∀ x ∈ before, x.sort ≠ m.sort := by simpa using hbefore
      have hrest : ∀ s, (before ++ after).filter (·.sort = s) = ms.filter (·.sort = s) := by
        intro s
        by_cases hs : m.sort = s
        · rw [← hs, List.filter_append, hafter, List.filter_eq_nil_iff.mpr hbefore,
            List.nil_append]
        · simpa [hs] using h s
      exact (reaches_cons (ih hrest) m).trans (reaches_passed m after hothers)

/-- Swaps lead from some members to others exactly if they agree sort by sort. -/
theorem reaches_iff_filter_sort_eq {ms ms' : List Member} :
    Relation.ReflTransGen Swaps ms ms'
      ↔ ∀ s, ms.filter (·.sort = s) = ms'.filter (·.sort = s) :=
  ⟨fun h s => (filter_sort_eq_of_reaches h s).symm,
    fun h => reaches_of_filter_sort_eq fun s => (h s).symm⟩

/-- The members that one sort's list is read from, if the list holds what they are made of. -/
theorem map_filterMap_eq_filter_sort {read : Member → Option α} {make : α → Member}
    {s : MemberSort} (h : ∀ m, (read m).map make = if m.sort = s then some m else none)
    (ms : List Member) : (ms.filterMap read).map make = ms.filter (·.sort = s) := by
  rw [List.map_filterMap, ← List.filterMap_eq_filter]
  congr 1
  funext m
  simp [h, Option.guard]

end Member

/-! ## The lists of a declaration -/

/-- The sorts of members. -/
def MemberSort.all : List MemberSort := [.field, .constructor, .method, .element, .type]

namespace Declaration

/-- The list of one sort, its entries as members. -/
def ofSort (d : Declaration) : MemberSort → List Member
  | .field => d.fields.map .field
  | .constructor => d.constructors.map .constructor
  | .method => d.methods.map .method
  | .element => d.elements.map .element
  | .type => d.nested.map .type

/-- Each list holds the members of its sort, in order. -/
theorem ofSort_eq_filter (d : Declaration) (s : MemberSort) :
    d.ofSort s = d.members.filter (·.sort = s) := by
  cases s <;> exact Member.map_filterMap_eq_filter_sort (fun m => by cases m <;> rfl) d.members

theorem mem_ofSort {d : Declaration} {s : MemberSort} {m : Member} :
    m ∈ d.ofSort s ↔ m ∈ d.members ∧ m.sort = s := by
  rw [ofSort_eq_filter, List.mem_filter, decide_eq_true_iff]

/-- A member is in the list of exactly one sort, its own. -/
theorem mem_members_iff_existsUnique {d : Declaration} {m : Member} :
    m ∈ d.members ↔ ∃! s, m ∈ d.ofSort s := by
  constructor
  · intro hm
    exact ⟨m.sort, mem_ofSort.mpr ⟨hm, rfl⟩, fun s hs => (mem_ofSort.mp hs).2.symm⟩
  · rintro ⟨s, hs, -⟩
    exact (mem_ofSort.mp hs).1

/-- Lists with the same entries as members are the same. -/
theorem ofSort_eq_iff {d d' : Declaration} :
    (∀ s, d.ofSort s = d'.ofSort s) ↔ d.fields = d'.fields ∧ d.constructors = d'.constructors
      ∧ d.methods = d'.methods ∧ d.elements = d'.elements ∧ d.nested = d'.nested := by
  constructor
  · intro h
    exact ⟨List.map_injective_iff.mpr (fun _ _ => Member.field.inj) (h .field),
      List.map_injective_iff.mpr (fun _ _ => Member.constructor.inj) (h .constructor),
      List.map_injective_iff.mpr (fun _ _ => Member.method.inj) (h .method),
      List.map_injective_iff.mpr (fun _ _ => Member.element.inj) (h .element),
      List.map_injective_iff.mpr (fun _ _ => Member.type.inj) (h .type)⟩
  · rintro ⟨hfields, hconstructors, hmethods, helements, hnested⟩ s
    cases s with
    | field => exact congrArg _ hfields
    | constructor => exact congrArg _ hconstructors
    | method => exact congrArg _ hmethods
    | element => exact congrArg _ helements
    | type => exact congrArg _ hnested

/-- A member occurs in the list of its sort as often as among all, and nowhere else. -/
theorem count_ofSort [DecidableEq Member] (d : Declaration) (s : MemberSort) (m : Member) :
    (d.ofSort s).count m = if m.sort = s then d.members.count m else 0 := by
  split
  · next hs => rw [ofSort_eq_filter, List.count_filter (by simpa using hs)]
  · next hs => exact List.count_eq_zero.mpr fun h => hs (mem_ofSort.mp h).2

/-- All lists together hold the members, each as often as it is there. -/
theorem flatMap_ofSort_perm (d : Declaration) :
    (MemberSort.all.flatMap d.ofSort).Perm d.members := by
  classical
  rw [List.perm_iff_count]
  intro m
  rw [List.count_flatMap]
  cases hs : m.sort <;> simp [MemberSort.all, count_ofSort, hs]

end Declaration

/-- **The lists of members tell them up to interleaving.** Two declarations have the same fields,
constructors, methods, elements and nested types exactly if swaps of neighbours of different sorts
make the members of the one out of those of the other. Every member is in the list of exactly one
sort, in its place among the members of that sort, and as often as it is a member. -/
theorem same_lists_iff_swaps (d d' : Declaration) :
    ((d.fields = d'.fields ∧ d.constructors = d'.constructors ∧ d.methods = d'.methods
        ∧ d.elements = d'.elements ∧ d.nested = d'.nested)
      ↔ Relation.ReflTransGen Member.Swaps d.members d'.members)
    ∧ (∀ m, m ∈ d.members ↔ ∃! s, m ∈ d.ofSort s)
    ∧ (∀ s, d.ofSort s = d.members.filter (·.sort = s))
    ∧ (MemberSort.all.flatMap d.ofSort).Perm d.members := by
  have hlists : (d.fields = d'.fields ∧ d.constructors = d'.constructors
      ∧ d.methods = d'.methods ∧ d.elements = d'.elements ∧ d.nested = d'.nested)
      ↔ Relation.ReflTransGen Member.Swaps d.members d'.members := by
    rw [← Declaration.ofSort_eq_iff, Member.reaches_iff_filter_sort_eq]
    simp only [Declaration.ofSort_eq_filter]
  exact ⟨hlists, fun _ => Declaration.mem_members_iff_existsUnique, d.ofSort_eq_filter,
    d.flatMap_ofSort_perm⟩

end JavaOutline

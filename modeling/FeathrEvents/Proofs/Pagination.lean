/-
Module: FeathrEvents.Proofs.Pagination
Purpose: When the pages of the listing, each a query of its own, give every matching event exactly once:
  when no two events with one timestamp are on different pages.
Trusted boundary: none
Main exports: PagesEnumerate, selected_distinct, pages_enumerate_iff
-/
import FeathrEvents.App.Listing

namespace FeathrEvents

open Paging (Collects TiesTogether)

/-- The pages at the offsets 0, `limit`, 2 `limit`, and so on up to the first short one give every
matching event exactly once, whatever MongoDB finds for the query of each page. -/
def PagesEnumerate (normaliser : Normaliser) (collection : Collection) (query : ListQuery)
    (limit : ℕ) : Prop :=
  ∀ find : ℕ → Filter → List Document, (∀ number, FindsIn collection (find number)) →
    ∃ items, Collects limit (fun number =>
        (EventQueries.listEvents normaliser (find number) query limit (number * limit)).items) 0 items ∧
      (items.map Event.eventId).Nodup ∧
      items.Perm ((collection.selected (query.filter normaliser)).map EventQueries.toOutput)

variable {normaliser : Normaliser} {collection : Collection} {query : ListQuery} {limit : ℕ}

/-- The documents found have distinct ids, and so have the events made from them. -/
theorem selected_distinct (collection : Collection) (filter : Filter) :
    (((collection.selected filter).map EventQueries.toOutput).map Event.eventId).Nodup := by
  have ids : ((collection.documents.map Document.readBack).map
      (Event.eventId ∘ EventQueries.toOutput)).Nodup := by
    rw [List.map_map]
    exact collection.distinct
  rw [List.map_map]
  exact ids.sublist (List.filter_sublist.map _)

theorem listEvents_items (within : 1 ≤ limit ∧ limit ≤ maxLimit) (find : Filter → List Document)
    (number : ℕ) :
    (EventQueries.listEvents normaliser find query limit (number * limit)).items =
      (Paging.page limit number (find (query.filter normaliser))).map EventQueries.toOutput := by
  have some : limit ≠ 0 := Nat.one_le_iff_ne_zero.mp within.1
  simp [EventQueries.listEvents, limited, min_eq_left within.2, some, Paging.page]

/-- The listing is read as any sorted rows are read page by page. -/
theorem pagesEnumerate_iff_enumerates (within : 1 ≤ limit ∧ limit ≤ maxLimit) :
    PagesEnumerate normaliser collection query limit ↔
      Paging.Enumerates Document.moment EventQueries.toOutput limit
        (collection.selected (query.filter normaliser)) := by
  constructor
  · intro enumerates answers allowed
    classical
    obtain ⟨items, collected, -, once⟩ := enumerates
      (fun number filter => if filter = query.filter normaliser then answers number
        else (collection.selected filter).insertionSort fun one two => two.moment ≤ one.moment)
      (by
        intro number filter
        dsimp only
        split
        · rename_i same
          exact same ▸ allowed number
        · exact Paging.answers_insertionSort ..)
    refine ⟨items, ?_, once⟩
    simpa only [listEvents_items within, if_true] using collected
  · intro enumerates find finds
    obtain ⟨items, collected, once⟩ :=
      enumerates (fun number => find number (query.filter normaliser)) fun number =>
        finds number _
    refine ⟨items, ?_, ?_, once⟩
    · simpa only [listEvents_items within] using collected
    · exact (once.map Event.eventId).nodup_iff.mpr (selected_distinct ..)

/-- The pages give every matching event exactly once exactly when the matching events that share a
timestamp fall on one page. -/
theorem pages_enumerate_iff (normaliser : Normaliser) (collection : Collection) (query : ListQuery)
    (limit : ℕ) (within : 1 ≤ limit ∧ limit ≤ maxLimit) :
    PagesEnumerate normaliser collection query limit ↔
      TiesTogether Document.moment limit (collection.selected (query.filter normaliser)) := by
  rw [pagesEnumerate_iff_enumerates within]
  exact Paging.enumerates_iff within.1 (selected_distinct ..).of_map

/-- An event of a second and an id. -/
def clicked (id : String) (second : ℤ) : Document :=
  ⟨id, "click", "u", "https://e.com/", ⟨second * 1000000, some 0⟩, ⟨0, some 0⟩, []⟩

/-- Two events at one time and an older one. -/
def burst : Collection where
  documents := [clicked "a" 2, clicked "b" 2, clicked "c" 1]
  distinct := by decide +kernel

theorem pages_enumerate_iff_burst :
    PagesEnumerate asTyped burst {} 2 ↔
      TiesTogether Document.moment 2 (burst.selected (({} : ListQuery).filter asTyped)) :=
  pages_enumerate_iff asTyped burst {} 2 (by decide)

/-- One event a page: MongoDB may give the same one of the two at both offsets. -/
theorem a_burst_is_not_enumerated : ¬ PagesEnumerate asTyped burst {} 1 := by
  rw [pagesEnumerate_iff_enumerates (by decide),
    Paging.enumerates_iff (by decide) (selected_distinct ..).of_map]
  decide +kernel

end FeathrEvents

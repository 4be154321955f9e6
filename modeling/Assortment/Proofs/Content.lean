import Assortment.Proofs.OrderedMap
import Assortment.Proofs.Tuples
import Mathlib.Data.Multiset.Sections

/-!
# The content of ordered maps

The content of a map is the collection of its entries without their order.  Two maps have the same
content exactly when they hold the same under every key, so whatever is found by looking keys up is
found in the one as in the other.

For a map of candidate lists, the contents of all rows that take one candidate of each key are the
sections of the candidates, and these do not depend on the order of the keys.
-/

namespace Assortment

universe u v

variable {α : Type u} {β : Type v}

namespace OrderedMap

/-- The entries of a map without their order. -/
def content (map : OrderedMap α) : Multiset (String × α) :=
  map.entries

/-- Maps have the same content exactly if their entries are reorderings of each other. -/
theorem content_eq_iff_perm
    {left right : OrderedMap α} :
    left.content = right.content ↔ left.entries.Perm right.entries :=
  Multiset.coe_eq_coe

theorem content_eq_iff
    {left right : OrderedMap α} :
    left.content = right.content ↔ ∀ key, left.get? key = right.get? key := by
  rw [content_eq_iff_perm]
  constructor
  · intro arranged key
    apply Option.ext
    intro value
    rw [get?_eq_some_iff, get?_eq_some_iff, arranged.mem_iff]
  · intro same
    refine (List.perm_ext_iff_of_nodup left.distinct.of_map right.distinct.of_map).2 ?_
    rintro ⟨key, value⟩
    rw [← get?_eq_some_iff, ← get?_eq_some_iff, same]

end OrderedMap

/-- The candidates of a key, each with the key. -/
def labelled (entry : String × List α) : Multiset (String × α) :=
  entry.2.map (Prod.mk entry.1)

/-- The rows that take one candidate of each key, without any order. -/
theorem coe_map_zip_tuples
    (entries : List (String × List α)) :
    Multiset.ofList ((tuples (entries.map Prod.snd)).map fun tuple =>
        Multiset.ofList ((Entries.keys entries).zip tuple)) =
      Multiset.Sections ((Multiset.ofList entries).map labelled) := by
  induction entries with
  | nil => rfl
  | cons entry rest inductionHypothesis =>
    rw [← Multiset.cons_coe, Multiset.map_cons, Multiset.sections_cons, ← inductionHypothesis,
      labelled]
    simp only [Multiset.map_coe, Multiset.coe_bind, List.flatMap_map, List.map_cons, tuples,
      List.map_flatMap, List.map_map, Function.comp_def, Entries.keys_cons, List.zip_cons_cons,
      Multiset.cons_coe]

namespace OrderedMap

/-- The contents of the rows of a map of candidates are the sections of its content. -/
theorem coe_map_content_withValues
    (map : OrderedMap (List α)) :
    Multiset.ofList ((tuples map.values).map fun tuple => (map.withValues tuple).content) =
      Multiset.Sections (map.content.map labelled) :=
  coe_map_zip_tuples map.entries

end OrderedMap

end Assortment

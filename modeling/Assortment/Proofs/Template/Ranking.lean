import Assortment.Proofs.OrderedMap
import Assortment.Template.Expansion
import Mathlib.Data.List.Infix

/-!
# The ranking of known names

The known names are ranked by the encoded length of their placeholders, the longest first.  Of two
beginnings of the same text the one with the longer encoding is also the longer text, so the first
ranked name whose placeholder begins a text has the longest such placeholder.  The order in which
the names are given to the ranking plays no part in this.
-/

namespace Assortment.Text

theorem encodedLength_append
    (before after : List Char) :
    encodedLength (before ++ after) = encodedLength before + encodedLength after := by
  induction before with
  | nil => simp [encodedLength]
  | cons character rest inductionHypothesis =>
    rw [List.cons_append, encodedLength, encodedLength, inductionHypothesis, Nat.add_assoc]

theorem length_le_encodedLength
    (text : List Char) :
    text.length ≤ encodedLength text := by
  induction text with
  | nil => exact Nat.le_refl 0
  | cons character rest inductionHypothesis =>
    have positive : 0 < character.utf8Size := Char.utf8Size_pos character
    rw [List.length_cons, encodedLength]
    omega

/-- Of two beginnings of one text, the one with the longer encoding is at least as long. -/
theorem length_le_of_isPrefix
    {left right text : List Char}
    (leftBegins : left <+: text)
    (rightBegins : right <+: text)
    (encoded : encodedLength left ≤ encodedLength right) :
    left.length ≤ right.length := by
  by_contra longer
  have shorter : right.length ≤ left.length := by omega
  rcases List.prefix_of_prefix_length_le rightBegins leftBegins shorter with ⟨rest, rfl⟩
  have counted := length_le_encodedLength rest
  rw [encodedLength_append] at encoded
  rw [List.length_append] at longer
  omega

end Assortment.Text

namespace Assortment.Template

/-- The length of the encoding of a placeholder, by which the entries of a table fall. -/
def rank (entry : String × String) : Nat :=
  Text.encodedLength (Placeholder.written entry.1)

theorem rank_le_of_precedes
    {left right : String × String}
    (before : precedes left.1 right.1 = true) :
    rank right ≤ rank left := by
  simp only [precedes, Bool.or_eq_true, Bool.and_eq_true, decide_eq_true_eq] at before
  rcases before with longer | ⟨same, _⟩
  · exact Nat.le_of_lt longer
  · exact Nat.le_of_eq same

theorem rank_le_of_not_precedes
    {left right : String × String}
    (behind : ¬ precedes left.1 right.1 = true) :
    rank left ≤ rank right := by
  simp only [precedes, Bool.or_eq_true, decide_eq_true_eq, not_or] at behind
  exact Nat.not_lt.1 behind.1

theorem rankAmong_perm
    (entry : String × String)
    (entries : List (String × String)) :
    (rankAmong entry entries).Perm (entry :: entries) := by
  induction entries with
  | nil => exact List.Perm.refl [entry]
  | cons other rest inductionHypothesis =>
    rw [rankAmong]
    split
    · exact List.Perm.refl (entry :: other :: rest)
    · exact (inductionHypothesis.cons other).trans (List.Perm.swap entry other rest)

theorem ranked_perm
    (entries : List (String × String)) :
    (ranked entries).Perm entries := by
  induction entries with
  | nil => exact List.Perm.refl []
  | cons entry rest inductionHypothesis =>
    exact (rankAmong_perm entry (ranked rest)).trans (inductionHypothesis.cons entry)

/-- Ranking an entry among falling ones keeps them falling. -/
theorem pairwise_rankAmong
    {entries : List (String × String)}
    (falling : entries.Pairwise fun left right => rank right ≤ rank left)
    (entry : String × String) :
    (rankAmong entry entries).Pairwise fun left right => rank right ≤ rank left := by
  induction entries with
  | nil => exact List.pairwise_singleton _ entry
  | cons other rest inductionHypothesis =>
    rcases List.pairwise_cons.1 falling with ⟨highest, later⟩
    rw [rankAmong]
    split
    · next before =>
      have first := rank_le_of_precedes before
      refine List.pairwise_cons.2 ⟨?_, falling⟩
      intro lower listed
      rcases List.mem_cons.1 listed with rfl | deeper
      · exact first
      · exact (highest lower deeper).trans first
    · next behind =>
      refine List.pairwise_cons.2 ⟨?_, inductionHypothesis later⟩
      intro lower listed
      rcases List.mem_cons.1 ((rankAmong_perm entry rest).mem_iff.1 listed) with rfl | deeper
      · exact rank_le_of_not_precedes behind
      · exact highest lower deeper

/-- Ranked entries fall in rank. -/
theorem pairwise_ranked
    (entries : List (String × String)) :
    (ranked entries).Pairwise fun left right => rank right ≤ rank left := by
  induction entries with
  | nil => exact List.Pairwise.nil
  | cons entry rest inductionHypothesis =>
    exact pairwise_rankAmong inductionHypothesis entry

/-- The first ranked entry whose placeholder begins a text has the longest such placeholder. -/
theorem longest_of_find?
    {entries : List (String × String)}
    {entry : String × String}
    {text : List Char}
    (falling : entries.Pairwise fun left right => rank right ≤ rank left)
    (found :
      entries.find? (fun entry => (Placeholder.written entry.1).isPrefixOf text) = some entry)
    {other : String × String}
    (listed : other ∈ entries)
    (begins : Placeholder.written other.1 <+: text) :
    (Placeholder.written other.1).length ≤ (Placeholder.written entry.1).length := by
  rcases List.find?_eq_some_iff_append.1 found with ⟨first, before, after, rfl, passed⟩
  have firstBegins : Placeholder.written entry.1 <+: text := List.isPrefixOf_iff_prefix.1 first
  -- Entries before the first match do not begin the text; those behind it rank lower.
  have lower : rank other ≤ rank entry := by
    rcases List.mem_append.1 listed with front | back
    · have skipped := passed other front
      rw [List.isPrefixOf_iff_prefix.2 begins] at skipped
      cases skipped
    · rcases List.mem_cons.1 back with rfl | later
      · exact Nat.le_refl _
      · exact (List.pairwise_cons.1 (List.pairwise_append.1 falling).2.1).1 other later
  exact Text.length_le_of_isPrefix begins firstBegins lower

end Assortment.Template

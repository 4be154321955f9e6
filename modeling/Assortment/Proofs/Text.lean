import Assortment.Text.Cut
import Mathlib.Data.List.DropRight

/-!
# Text divided, joined and trimmed

Pieces that are joined with a mark come back when the text is divided at the mark, as long as the
mark stands in none of them; and no piece of a divided text holds the mark.  A reader that takes all
characters of a class takes exactly a run of them when the text behind the run does not go on with
the class, and what trimming takes away at the two ends is of the class that is trimmed.
-/

namespace Assortment.Text

section Pieces

variable {mark : Char}

theorem not_mem_of_mem_splitOn
    {piece text : List Char}
    (listed : piece ∈ text.splitOn mark) :
    mark ∉ piece := by
  rw [List.splitOn_eq_splitOnP] at listed
  induction text generalizing piece with
  | nil =>
    rw [List.splitOnP_nil, List.mem_singleton] at listed
    simp [listed]
  | cons character rest inductionHypothesis =>
    rw [List.splitOnP_cons_eq_if_modifyHead] at listed
    split at listed
    · rcases List.mem_cons.1 listed with rfl | later
      · exact List.not_mem_nil
      · exact inductionHypothesis later
    · next different =>
      rcases List.exists_cons_of_ne_nil (List.splitOnP_ne_nil (· == mark) rest) with
        ⟨first, others, divided⟩
      rw [divided] at listed inductionHypothesis
      rcases List.mem_cons.1 listed with rfl | later
      · have unmarked : mark ≠ character := by
          rintro rfl
          exact different (beq_self_eq_true _)
        exact List.not_mem_cons_of_ne_of_not_mem unmarked
          (inductionHypothesis List.mem_cons_self)
      · exact inductionHypothesis (List.mem_cons_of_mem _ later)

/-- No piece of a text that is divided at a mark holds the mark. -/
theorem not_mem_of_mem_splitAt
    {piece text : String}
    (listed : piece ∈ splitAt mark text) :
    mark ∉ piece.toList := by
  rcases List.mem_map.1 listed with ⟨characters, found, rfl⟩
  rw [String.toList_ofList]
  exact not_mem_of_mem_splitOn found

/-- A mark that stands in none of the pieces and not between them stands nowhere in their text. -/
theorem not_mem_intercalate
    {between : String}
    {pieces : List String}
    (outside : mark ∉ between.toList)
    (unmarked : ∀ piece ∈ pieces, mark ∉ piece.toList) :
    mark ∉ (between.intercalate pieces).toList := by
  induction pieces with
  | nil => simp
  | cons piece rest inductionHypothesis =>
    rcases List.forall_mem_cons.1 unmarked with ⟨first, others⟩
    cases rest with
    | nil => simpa using first
    | cons next later =>
      rw [String.intercalate_cons_cons]
      simp only [String.toList_append, List.mem_append, not_or]
      exact ⟨⟨first, outside⟩, inductionHypothesis others⟩

/-- Joined pieces are divided again where they were joined. -/
theorem splitAt_intercalate
    {pieces : List String}
    (inhabited : pieces ≠ [])
    (unmarked : ∀ piece ∈ pieces, mark ∉ piece.toList) :
    splitAt mark ((String.singleton mark).intercalate pieces) = pieces := by
  have divided :
      ([mark].intercalate (pieces.map String.toList)).splitOn mark =
        pieces.map String.toList := by
    apply List.splitOn_intercalate mark
    · intro characters listed
      rcases List.mem_map.1 listed with ⟨piece, member, rfl⟩
      exact unmarked piece member
    · simpa using inhabited
  rw [splitAt, String.toList_intercalate, String.toList_singleton, divided, List.map_map]
  exact (List.map_congr_left fun _ _ => String.ofList_toList).trans (List.map_id pieces)

/-- The pieces of a divided text, joined with the mark, are the text. -/
theorem intercalate_splitAt
    (mark : Char)
    (text : String) :
    (String.singleton mark).intercalate (splitAt mark text) = text := by
  have pieces : (splitAt mark text).map String.toList = text.toList.splitOn mark := by
    rw [splitAt, List.map_map]
    exact (List.map_congr_left fun _ _ => String.toList_ofList).trans (List.map_id _)
  apply String.toList_inj.1
  rw [String.toList_intercalate, String.toList_singleton, pieces]
  exact List.intercalate_splitOn mark

@[simp]
theorem splitAt_empty :
    splitAt mark "" = [""] := by
  simp [splitAt]

/-- A mark between two texts divides them. -/
theorem splitAt_append
    (before behind : String) :
    splitAt mark (before ++ String.singleton mark ++ behind) =
      splitAt mark before ++ splitAt mark behind := by
  have shape :
      (before ++ String.singleton mark ++ behind).toList =
        before.toList ++ mark :: behind.toList := by
    simp
  rw [splitAt, shape, List.splitOn_append_cons_self, List.map_append]
  rfl

end Pieces

section Runs

variable
    {accepts drops : Char → Bool}
    {run rest text : List Char}

/-- A run of accepted characters is taken as a whole if none follows it. -/
theorem takeWhile_run
    (inside : run.all accepts = true)
    (boundary : ∀ character ∈ rest.head?, accepts character = false) :
    (run ++ rest).takeWhile accepts = run := by
  rw [List.takeWhile_append_of_pos (List.all_eq_true.1 inside)]
  cases rest with
  | nil => simp
  | cons character behind => simp [boundary character rfl]

theorem dropWhile_run
    (inside : run.all accepts = true)
    (boundary : ∀ character ∈ rest.head?, accepts character = false) :
    (run ++ rest).dropWhile accepts = rest := by
  rw [List.dropWhile_append_of_pos (List.all_eq_true.1 inside)]
  cases rest with
  | nil => rfl
  | cons character behind => simp [boundary character rfl]

/-- Trimming takes away what is around a text without characters that are trimmed. -/
theorem trim_between
    {before middle behind : List Char}
    (present : middle ≠ [])
    (inside : ∀ character ∈ middle, drops character = false)
    (outside : ∀ character ∈ before ++ behind, drops character = true) :
    trim drops (before ++ (middle ++ behind)) = middle := by
  have inFront : before.all drops = true :=
    List.all_eq_true.2 fun character member => outside character (List.mem_append_left behind member)
  have inBack : behind.reverse.all drops = true :=
    List.all_eq_true.2 fun character member =>
      outside character (List.mem_append_right before (List.mem_reverse.1 member))
  have first : ∀ character ∈ (middle ++ behind).head?, drops character = false := by
    intro character leads
    rw [List.head?_append_of_ne_nil middle present] at leads
    exact inside character (List.mem_of_head? leads)
  have last : ∀ character ∈ middle.reverse.head?, drops character = false := by
    intro character leads
    exact inside character (List.mem_reverse.1 (List.mem_of_head? leads))
  rw [trim, dropWhile_run inFront first, List.reverse_append, dropWhile_run inBack last,
    List.reverse_reverse]

/-- Trimming a text at its beginning leaves what trimming it at both ends leaves, and behind that
only characters that are trimmed. -/
theorem exists_trimStart_eq
    (drops : Char → Bool)
    (text : List Char) :
    ∃ behind,
      trimStart drops text = trim drops text ++ behind ∧
        ∀ character ∈ behind, drops character = true :=
  ⟨(text.dropWhile drops).rtakeWhile drops, List.rdropWhile_append_rtakeWhile.symm,
    fun _ => List.mem_rtakeWhile_imp⟩

/-- A text is what trimming leaves of it, between characters that are trimmed. -/
theorem exists_trim_eq
    (drops : Char → Bool)
    (text : List Char) :
    ∃ before behind,
      text = before ++ trim drops text ++ behind ∧
        ∀ character ∈ before ++ behind, drops character = true := by
  rcases exists_trimStart_eq drops text with ⟨behind, started, dropped⟩
  refine ⟨text.takeWhile drops, behind, ?_, ?_⟩
  · rw [List.append_assoc, ← started]
    exact List.takeWhile_append_dropWhile.symm
  · intro character outside
    rcases List.mem_append.1 outside with inFront | inBack
    · exact List.mem_takeWhile_imp inFront
    · exact dropped character inBack

/-- What trimming leaves does not begin with a character that is trimmed. -/
theorem head?_trim_not
    {character : Char}
    (leads : character ∈ (trim drops text).head?) :
    drops character = false := by
  rcases exists_trimStart_eq drops text with ⟨behind, started, _⟩
  have first : (trimStart drops text).head? = some character := by
    rw [started, List.head?_append, Option.mem_def.1 leads, Option.some_or]
  have notDropped := List.head?_dropWhile_not drops text
  rw [trimStart] at first
  rw [first] at notDropped
  exact notDropped

/-- What trimming leaves does not end with a character that is trimmed. -/
theorem getLast?_trim_not
    {character : Char}
    (closes : character ∈ (trim drops text).getLast?) :
    drops character = false := by
  have notDropped := List.head?_dropWhile_not drops (text.dropWhile drops).reverse
  rw [trim, List.getLast?_reverse] at closes
  rw [Option.mem_def.1 closes] at notDropped
  exact notDropped

end Runs

end Assortment.Text

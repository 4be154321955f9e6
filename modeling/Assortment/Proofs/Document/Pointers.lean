import Assortment.Document.Findings
import Assortment.Document.Shape
import Assortment.Proofs.Text

/-!
# Pointers read back

A pointer lists the keys that lead to a place, each behind a slash and with its tildes and slashes
escaped.  Reading one divides it at its slashes and takes the escapes back, and fails at a tilde
that begins no escape.  So a pointer is read as the place that it was written for, and a text that
is read as a place is the pointer to it.

Findings are reported under a path in which the keys of their place are written as they are.  Such
a path is never longer than the pointer to the same place, and it is as long only if no key has
anything to escape.  Hence it is read as its place exactly when the keys are plain.
-/

namespace Assortment

namespace Pointer

/-- How a character of a key is written. -/
def escapeOf (character : Char) : List Char :=
  if character = '~' then ['~', '0'] else if character = '/' then ['~', '1'] else [character]

theorem escapeOf_of_ne
    {character : Char}
    (notTilde : character ≠ '~')
    (notSlash : character ≠ '/') :
    escapeOf character = [character] := by
  rw [escapeOf, if_neg notTilde, if_neg notSlash]

/-- The characters of a key with tildes and slashes escaped. -/
def escape (key : List Char) : List Char :=
  key.flatMap escapeOf

theorem escape_cons
    (character : Char)
    (rest : List Char) :
    escape (character :: rest) = escapeOf character ++ escape rest := rfl

theorem toList_escapeKey
    (key : String) :
    (Violation.escapeKey key).toList = escape key.toList :=
  String.toList_ofList

/-- The key that is escaped in one part of a pointer; a tilde has to begin an escape. -/
def unescape? : List Char → Option (List Char)
  | [] => some []
  | '~' :: '0' :: rest => (unescape? rest).map ('~' :: ·)
  | '~' :: '1' :: rest => (unescape? rest).map ('/' :: ·)
  | character :: rest =>
    if character = '~' then none else (unescape? rest).map (character :: ·)

/-- Behind a character other than the tilde, unescaping goes on. -/
theorem unescape?_cons
    {character : Char}
    (plain : character ≠ '~')
    (rest : List Char) :
    unescape? (character :: rest) = (unescape? rest).map (character :: ·) := by
  rw [unescape?]
  · exact if_neg plain
  · rintro _ rfl
    exact absurd rfl plain
  · rintro _ rfl
    exact absurd rfl plain

/-- What was escaped is read back. -/
theorem unescape?_escape
    (key : List Char) :
    unescape? (escape key) = some key := by
  induction key with
  | nil => rfl
  | cons character rest inductionHypothesis =>
    by_cases tilde : character = '~'
    · subst tilde
      exact congrArg (Option.map ('~' :: ·)) inductionHypothesis
    · by_cases slash : character = '/'
      · subst slash
        exact congrArg (Option.map ('/' :: ·)) inductionHypothesis
      · rw [escape_cons, escapeOf_of_ne tilde slash, List.singleton_append, unescape?_cons tilde,
          inductionHypothesis, Option.map_some]

/-- Without slashes only what was escaped is read. -/
theorem eq_escape_of_unescape?
    {part key : List Char}
    (unslashed : '/' ∉ part)
    (read : unescape? part = some key) :
    part = escape key := by
  fun_induction unescape? part generalizing key with
  | case1 =>
    cases read
    rfl
  | case2 rest inductionHypothesis =>
    rcases Option.map_eq_some_iff.1 read with ⟨others, readable, rfl⟩
    have later : '/' ∉ rest :=
      fun listed => unslashed (List.mem_cons_of_mem _ (List.mem_cons_of_mem _ listed))
    rw [inductionHypothesis later readable]
    rfl
  | case3 rest inductionHypothesis =>
    rcases Option.map_eq_some_iff.1 read with ⟨others, readable, rfl⟩
    have later : '/' ∉ rest :=
      fun listed => unslashed (List.mem_cons_of_mem _ (List.mem_cons_of_mem _ listed))
    rw [inductionHypothesis later readable]
    rfl
  | case4 rest _ _ => cases read
  | case5 character rest _ _ plain inductionHypothesis =>
    rcases Option.map_eq_some_iff.1 read with ⟨others, readable, rfl⟩
    rcases not_or.1 (mt List.mem_cons.2 unslashed) with ⟨notSlash, later⟩
    rw [inductionHypothesis later readable, escape_cons, escapeOf_of_ne plain (Ne.symm notSlash),
      List.singleton_append]

/-- An escaped key contains no slash, so a pointer can be split at its slashes. -/
theorem slash_not_mem_escape
    (key : List Char) :
    '/' ∉ escape key := by
  rw [escape, List.mem_flatMap]
  rintro ⟨character, _, listed⟩
  rw [escapeOf] at listed
  split at listed
  · simp at listed
  · split at listed
    · simp at listed
    · next notSlash => exact notSlash (List.mem_singleton.1 listed).symm

/-- The key of one part of a pointer. -/
def key? (part : String) : Option String :=
  (unescape? part.toList).map String.ofList

theorem key?_eq_some_iff
    {part key : String}
    (unslashed : '/' ∉ part.toList) :
    key? part = some key ↔ part = Violation.escapeKey key := by
  rw [key?, Option.map_eq_some_iff]
  constructor
  · rintro ⟨characters, read, rfl⟩
    rw [← String.toList_inj, toList_escapeKey, String.toList_ofList]
    exact eq_escape_of_unescape? unslashed read
  · rintro rfl
    exact ⟨key.toList, by rw [toList_escapeKey, unescape?_escape], String.ofList_toList⟩

/-- The keys of a list of parts, all of which have to be readable. -/
def keysOf? : List String → Option (List String)
  | [] => some []
  | part :: rest =>
    match key? part, keysOf? rest with
    | some key, some keys => some (key :: keys)
    | _, _ => none

/-- The parts of a pointer are read as keys exactly if they are those keys, escaped. -/
theorem keysOf?_eq_some_iff
    {parts keys : List String}
    (unslashed : ∀ part ∈ parts, '/' ∉ part.toList) :
    keysOf? parts = some keys ↔ parts = keys.map Violation.escapeKey := by
  induction parts generalizing keys with
  | nil => cases keys <;> simp [keysOf?]
  | cons part rest inductionHypothesis =>
    rcases List.forall_mem_cons.1 unslashed with ⟨first, others⟩
    cases keys with
    | nil =>
      rw [keysOf?]
      split <;> simp
    | cons key later =>
      rw [keysOf?, List.map_cons, List.cons.injEq, ← key?_eq_some_iff first,
        ← inductionHypothesis others]
      cases key? part <;> cases keysOf? rest <;> simp

/-- The keys that a text lists as a pointer. -/
def keys? (text : String) : Option (List String) :=
  match Text.splitAt '/' text with
  | [] => none
  | first :: parts => if first = "" then keysOf? parts else none

/-- Keys that are joined behind slashes, as the rest of a text that begins with nothing. -/
theorem join_eq_intercalate
    (parts : List String) :
    String.join (parts.map ("/" ++ ·)) = "/".intercalate ("" :: parts) := by
  induction parts with
  | nil => simp
  | cons part rest inductionHypothesis =>
    rw [List.map_cons, String.join_cons, inductionHypothesis, String.intercalate_cons_cons]
    cases rest with
    | nil => simp
    | cons next later => simp [String.append_assoc]

/-- A text is read as keys exactly when it lists them escaped. -/
theorem keys?_eq_some_iff
    {text : String}
    {keys : List String} :
    keys? text = some keys ↔
      text = String.join (keys.map fun key => "/" ++ Violation.escapeKey key) := by
  have joined :
      String.join (keys.map fun key => "/" ++ Violation.escapeKey key) =
        "/".intercalate ("" :: keys.map Violation.escapeKey) := by
    rw [← join_eq_intercalate, List.map_map]
    rfl
  rw [joined, keys?]
  constructor
  · intro read
    have whole := Text.intercalate_splitAt '/' text
    split at read
    · cases read
    · next first parts divided =>
      split at read
      · next empty =>
        have unslashed : ∀ part ∈ parts, '/' ∉ part.toList := by
          intro part listed
          apply Text.not_mem_of_mem_splitAt
          rw [divided]
          exact List.mem_cons_of_mem first listed
        rw [keysOf?_eq_some_iff unslashed] at read
        rw [← whole, divided, empty, read]
        rfl
      · cases read
  · rintro rfl
    have unslashed : ∀ part ∈ keys.map Violation.escapeKey, '/' ∉ part.toList := by
      intro part listed
      rcases List.mem_map.1 listed with ⟨key, _, rfl⟩
      rw [toList_escapeKey]
      exact slash_not_mem_escape key.toList
    have divided :
        Text.splitAt '/' ("/".intercalate ("" :: keys.map Violation.escapeKey)) =
          "" :: keys.map Violation.escapeKey := by
      apply Text.splitAt_intercalate (List.cons_ne_nil _ _)
      exact List.forall_mem_cons.2 ⟨List.not_mem_nil, unslashed⟩
    rw [divided]
    exact (keysOf?_eq_some_iff unslashed).2 rfl

/-- The pointer to a place below the root is read as the place. -/
theorem keys?_pointer
    {place : List String}
    (below : place ≠ []) :
    keys? (Violation.pointer place) = some place := by
  rw [keys?_eq_some_iff, Violation.pointer]
  exact if_neg (mt List.isEmpty_iff.1 below)

/-- Whether a character is written as an escape. -/
def isReserved (character : Char) : Bool :=
  character = '~' || character = '/'

/-- Escaping a character takes one more place if it has a meaning in pointers. -/
theorem length_escapeOf
    (character : Char) :
    (escapeOf character).length = 1 + if isReserved character then 1 else 0 := by
  by_cases tilde : character = '~'
  · simp [escapeOf, isReserved, tilde]
  · by_cases slash : character = '/'
    · simp [escapeOf, isReserved, slash]
    · simp [escapeOf_of_ne tilde slash, isReserved, tilde, slash]

/-- Every escape makes a key longer by one character. -/
theorem length_escape
    (key : List Char) :
    (escape key).length = key.length + key.countP isReserved := by
  induction key with
  | nil => rfl
  | cons character rest inductionHypothesis =>
    rw [escape_cons, List.length_append, length_escapeOf, inductionHypothesis, List.countP_cons,
      List.length_cons]
    omega

/-- A key in which nothing has to be escaped. -/
def IsPlain (key : String) : Prop :=
  '/' ∉ key.toList ∧ '~' ∉ key.toList

instance (key : String) : Decidable (IsPlain key) :=
  inferInstanceAs (Decidable (_ ∧ _))

theorem countP_isReserved_eq_zero_iff
    {key : String} :
    key.toList.countP isReserved = 0 ↔ IsPlain key := by
  rw [List.countP_eq_zero, IsPlain]
  constructor
  · intro free
    exact ⟨fun listed => free '/' listed rfl, fun listed => free '~' listed rfl⟩
  · rintro ⟨unslashed, untilded⟩ character listed reserved
    rcases Bool.or_eq_true_iff.1 reserved with tilde | slash
    · exact untilded (of_decide_eq_true tilde ▸ listed)
    · exact unslashed (of_decide_eq_true slash ▸ listed)

theorem escape_of_countP_eq_zero
    {key : List Char}
    (free : key.countP isReserved = 0) :
    escape key = key := by
  induction key with
  | nil => rfl
  | cons character rest inductionHypothesis =>
    rw [List.countP_eq_zero, List.forall_mem_cons, ← List.countP_eq_zero] at free
    rcases free with ⟨unreserved, others⟩
    simp only [isReserved, Bool.or_eq_true, decide_eq_true_eq, not_or] at unreserved
    rw [escape_cons, escapeOf_of_ne unreserved.1 unreserved.2, inductionHypothesis others,
      List.singleton_append]

theorem escapeKey_of_isPlain
    {key : String}
    (plain : IsPlain key) :
    Violation.escapeKey key = key := by
  rw [← String.toList_inj, toList_escapeKey,
    escape_of_countP_eq_zero (countP_isReserved_eq_zero_iff.2 plain)]

/-- Escaping makes keys longer by the reserved characters in them. -/
theorem length_join_escapeKey
    (keys : List String) :
    (String.join (keys.map fun key => "/" ++ Violation.escapeKey key)).toList.length =
      (String.join (keys.map ("/" ++ ·))).toList.length +
        (keys.flatMap String.toList).countP isReserved := by
  induction keys with
  | nil => rfl
  | cons key rest inductionHypothesis =>
    simp only [List.map_cons, String.join_cons, String.toList_append, List.length_append,
      inductionHypothesis, toList_escapeKey, length_escape, List.flatMap_cons, List.countP_append]
    omega

/-- Keys that are written as they are behind slashes are read exactly when they are plain. -/
theorem keys?_join_iff
    {keys : List String} :
    keys? (String.join (keys.map ("/" ++ ·))) = some keys ↔ ∀ key ∈ keys, IsPlain key := by
  rw [keys?_eq_some_iff]
  constructor
  · -- Escaping never shortens, so texts of equal length have nothing to escape in any key.
    intro same key listed
    have lengths := length_join_escapeKey keys
    rw [← same] at lengths
    have none : (keys.flatMap String.toList).countP isReserved = 0 := by omega
    rw [List.countP_eq_zero] at none
    apply countP_isReserved_eq_zero_iff.1
    rw [List.countP_eq_zero]
    intro character inside
    exact none character (List.mem_flatMap.2 ⟨key, listed, inside⟩)
  · intro plain
    congr 1
    apply List.map_congr_left
    intro key listed
    rw [escapeKey_of_isPlain (plain key listed)]

end Pointer

end Assortment

import Mathlib.Data.List.TakeWhile

/-!
# Scanning a text for a pattern

A pattern is given by the length of its match at the start of a text, 0 where it does not match.
A scan goes from left to right: a match is recorded and passed over, any other symbol is kept.
`findAll` gives the matches and `removeAll` the symbols that are kept; `Scanned` is the relation
that both follow.
-/
namespace Scan

variable {α : Type}

/-- The matches in `text`, in at most `rounds` steps. -/
def findFrom (matchLength : List α → Nat) : Nat → List α → List (List α)
  | 0, _ | _, [] => []
  | rounds + 1, u :: rest =>
    if matchLength (u :: rest) = 0 then findFrom matchLength rounds rest
    else
      let count := matchLength (u :: rest)
      (u :: rest).take count :: findFrom matchLength rounds ((u :: rest).drop count)

/-- The symbols of `text` outside the matches, in at most `rounds` steps. -/
def removeFrom (matchLength : List α → Nat) : Nat → List α → List α
  | 0, _ | _, [] => []
  | rounds + 1, u :: rest =>
    if matchLength (u :: rest) = 0 then u :: removeFrom matchLength rounds rest
    else removeFrom matchLength rounds ((u :: rest).drop (matchLength (u :: rest)))

def findAll (matchLength : List α → Nat) (text : List α) : List (List α) :=
  findFrom matchLength text.length text

def removeAll (matchLength : List α → Nat) (text : List α) : List α :=
  removeFrom matchLength text.length text

/-- The scan of a text finds these matches and keeps these symbols. -/
inductive Scanned (matchLength : List α → Nat) : List α → List (List α) → List α → Prop
  | nil : Scanned matchLength [] [] []
  | keep {u : α} {rest : List α} {found : List (List α)} {kept : List α}
      (unmatched : matchLength (u :: rest) = 0) (others : Scanned matchLength rest found kept) :
      Scanned matchLength (u :: rest) found (u :: kept)
  | pass {piece rest : List α} {found : List (List α)} {kept : List α}
      (nonempty : piece ≠ []) (length : matchLength (piece ++ rest) = piece.length)
      (others : Scanned matchLength rest found kept) :
      Scanned matchLength (piece ++ rest) (piece :: found) kept

variable {matchLength : List α → Nat}

theorem Scanned.unique {text kept kept' : List α} {found found' : List (List α)}
    (first : Scanned matchLength text found kept) (second : Scanned matchLength text found' kept') :
    found = found' ∧ kept = kept' := by
  induction first generalizing found' kept' with
  | nil =>
    generalize start : ([] : List α) = text at second
    cases second with
    | nil => exact ⟨rfl, rfl⟩
    | keep => cases start
    | pass nonempty => exact absurd (List.append_eq_nil_iff.mp start.symm).1 nonempty
  | @keep u rest found kept unmatched _ ih =>
    generalize start : u :: rest = text at second
    cases second with
    | nil => cases start
    | keep _ others =>
      cases start
      obtain ⟨rfl, rfl⟩ := ih others
      exact ⟨rfl, rfl⟩
    | pass nonempty length =>
      rw [← start, unmatched] at length
      exact absurd (List.eq_nil_of_length_eq_zero length.symm) nonempty
  | @pass piece rest found kept nonempty length _ ih =>
    generalize start : piece ++ rest = text at second
    cases second with
    | nil => exact absurd (List.append_eq_nil_iff.mp start).1 nonempty
    | keep unmatched =>
      rw [start, unmatched] at length
      exact absurd (List.eq_nil_of_length_eq_zero length.symm) nonempty
    | pass _ lengthToo others =>
      have sizes := length.symm.trans ((congrArg matchLength start).trans lengthToo)
      obtain ⟨rfl, rfl⟩ := List.append_inj start sizes
      obtain ⟨rfl, rfl⟩ := ih others
      exact ⟨rfl, rfl⟩

theorem scanned_from (inside : ∀ text, matchLength text ≤ text.length) (rounds : Nat)
    (text : List α) (enough : text.length ≤ rounds) :
    Scanned matchLength text (findFrom matchLength rounds text)
      (removeFrom matchLength rounds text) := by
  induction rounds generalizing text with
  | zero =>
    rw [List.eq_nil_of_length_eq_zero (Nat.le_zero.mp enough)]
    exact .nil
  | succ rounds ih =>
    cases text with
    | nil => exact .nil
    | cons u rest =>
      rw [List.length_cons] at enough
      simp only [findFrom, removeFrom]
      split
      next unmatched => exact .keep unmatched (ih rest (by omega))
      next matched =>
        have bound := inside (u :: rest)
        have size : ((u :: rest).take (matchLength (u :: rest))).length =
            matchLength (u :: rest) := by
          rw [List.length_take]
          omega
        have others := ih ((u :: rest).drop (matchLength (u :: rest))) (by
          rw [List.length_drop, List.length_cons]
          omega)
        have whole := List.take_append_drop (matchLength (u :: rest)) (u :: rest)
        have nonempty : (u :: rest).take (matchLength (u :: rest)) ≠ [] := by
          intro empty
          rw [empty] at size
          exact matched size.symm
        have passed := Scanned.pass nonempty (by rw [whole, size]) others
        rwa [whole] at passed

theorem scanned (inside : ∀ text, matchLength text ≤ text.length) (text : List α) :
    Scanned matchLength text (findAll matchLength text) (removeAll matchLength text) :=
  scanned_from inside text.length text (Nat.le_refl _)

/-! ### Whole runs -/

section Runs

variable {ofRun : α → Bool} {run after : List α}

/-- A run of symbols of a class, with a symbol outside the class or nothing after it, is taken
whole. -/
theorem takeWhile_run (inRun : ∀ u ∈ run, ofRun u = true)
    (ends : ∀ u rest, after = u :: rest → ofRun u = false) :
    (run ++ after).takeWhile ofRun = run := by
  rw [List.takeWhile_append_of_pos inRun]
  cases after with
  | nil => simp
  | cons u rest => rw [List.takeWhile_cons_of_neg (by simp [ends u rest rfl]), List.append_nil]

theorem dropWhile_run (inRun : ∀ u ∈ run, ofRun u = true)
    (ends : ∀ u rest, after = u :: rest → ofRun u = false) :
    (run ++ after).dropWhile ofRun = after := by
  rw [List.dropWhile_append_of_pos inRun]
  cases after with
  | nil => rfl
  | cons u rest => rw [List.dropWhile_cons_of_neg (by simp [ends u rest rfl])]

/-- What is left after the symbols of a class starts outside the class. -/
theorem dropWhile_ends (ofRun : α → Bool) (text : List α) (u : α) (rest : List α)
    (left : text.dropWhile ofRun = u :: rest) : ofRun u = false := by
  have nonempty : text.dropWhile ofRun ≠ [] := by simp [left]
  have := List.head_dropWhile_not ofRun nonempty
  simpa [left] using this

end Runs

/-! ### Runs between two marks -/

variable [DecidableEq α]

/-- The length of the match of an opening mark, a run of one or more symbols of a class, and a
closing mark, where the closing mark starts with a symbol outside the class. -/
def enclosedLength (opening closing : List α) (ofRun : α → Bool) (text : List α) : Nat :=
  if opening.isPrefixOf text then
    let rest := text.drop opening.length
    let run := rest.takeWhile ofRun
    if run ≠ [] ∧ closing.isPrefixOf (rest.drop run.length) then
      opening.length + run.length + closing.length
    else 0
  else 0

section Enclosed

variable {opening closing : List α} {ofRun : α → Bool}

/-- A match is an opening mark, a run and a closing mark. -/
theorem enclosedLength_spec {text : List α}
    (matched : enclosedLength opening closing ofRun text ≠ 0) :
    ∃ run rest, run ≠ [] ∧ (∀ u ∈ run, ofRun u = true) ∧
      text = opening ++ run ++ closing ++ rest ∧
        enclosedLength opening closing ofRun text = (opening ++ run ++ closing).length := by
  unfold enclosedLength at matched ⊢
  dsimp only at matched ⊢
  split at matched
  next opens =>
    split at matched
    next shape =>
      obtain ⟨after, rfl⟩ := List.isPrefixOf_iff_prefix.mp opens
      rw [List.drop_left' rfl] at shape ⊢
      obtain ⟨nonempty, closes⟩ := shape
      obtain ⟨rest, found⟩ := List.isPrefixOf_iff_prefix.mp closes
      have whole : after.takeWhile ofRun ++ after.drop (after.takeWhile ofRun).length = after :=
        List.prefix_iff_eq_append.mp (List.takeWhile_prefix ofRun)
      refine ⟨after.takeWhile ofRun, rest, nonempty, fun u => List.mem_takeWhile_imp, ?_, ?_⟩
      · rw [List.append_assoc, List.append_assoc, found, whole]
      · rw [if_pos opens, if_pos ⟨nonempty, closes⟩, List.length_append, List.length_append]
    next => exact absurd rfl matched
  next => exact absurd rfl matched

theorem enclosedLength_le (text : List α) :
    enclosedLength opening closing ofRun text ≤ text.length := by
  by_cases matched : enclosedLength opening closing ofRun text = 0
  · omega
  · obtain ⟨run, rest, -, -, shape, length⟩ := enclosedLength_spec matched
    have total := congrArg List.length shape
    rw [List.length_append] at total
    omega

/-- Every such text is matched, because the run ends where the closing mark starts. -/
theorem enclosedLength_eq {run : List α} (rest : List α) (nonempty : run ≠ [])
    (inRun : ∀ u ∈ run, ofRun u = true) (closes : ∃ u tail, closing = u :: tail ∧ ofRun u = false) :
    enclosedLength opening closing ofRun (opening ++ run ++ closing ++ rest) =
      (opening ++ run ++ closing).length := by
  obtain ⟨u, tail, isClosing, outside⟩ := closes
  have run_eq : (run ++ (closing ++ rest)).takeWhile ofRun = run := by
    apply takeWhile_run inRun
    intro v others starts
    rw [isClosing, List.cons_append] at starts
    rwa [← (List.cons.inj starts).1]
  have marks : closing.isPrefixOf (closing ++ rest) = true :=
    List.isPrefixOf_iff_prefix.mpr (List.prefix_append ..)
  rw [enclosedLength, List.append_assoc, List.append_assoc,
    if_pos (List.isPrefixOf_iff_prefix.mpr (List.prefix_append ..)), List.drop_left' rfl]
  simp only [run_eq, List.drop_left' rfl]
  rw [if_pos ⟨nonempty, marks⟩, List.length_append, List.length_append, Nat.add_assoc]

end Enclosed

end Scan

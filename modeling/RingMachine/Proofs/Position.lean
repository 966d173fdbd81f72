import RingMachine.Proofs.Grammar

/-!
Positions of program text in closed form. Reading moves its position on one character at a time,
from the reading loop and from inside comments alike; after any text the position is its line,
one more than the line feeds read, and its column, the count of characters since the last line
feed, plus one. So every token, the end of the text and every error stand at the position of
their index: the line feeds before the index, and the distance from the last of them.
-/

namespace RingMachine.Position

def lastLineFeed (cs : List Char) : Int :=
  ((cs.zipIdx.filter fun p => p.1 = '\n').getLast?.map fun p => (p.2 : Int)).getD (-1)

/-- The position of index `i` of a text: one line more than the line feeds before `i`, and as
many columns as `i` lies past the last of them, counted from `-1` when there is none. -/
def ofIndex (cs : List Char) (i : Nat) : Position :=
  ⟨1 + (cs.take i).count '\n', ((i : Int) - lastLineFeed (cs.take i)).toNat⟩

@[simp] theorem lastLineFeed_nil : lastLineFeed [] = -1 := rfl

theorem lastLineFeed_concat_lineFeed (xs : List Char) :
    lastLineFeed (xs ++ ['\n']) = xs.length := by
  simp [lastLineFeed, List.zipIdx_append, List.filter_append]

theorem lastLineFeed_concat_of_ne {c : Char} (other : c ≠ '\n') (xs : List Char) :
    lastLineFeed (xs ++ [c]) = lastLineFeed xs := by
  simp [lastLineFeed, List.zipIdx_append, List.filter_append, other]

theorem lastLineFeed_lt (xs : List Char) : lastLineFeed xs < xs.length := by
  unfold lastLineFeed
  cases last : (xs.zipIdx.filter fun p => p.1 = '\n').getLast? with
  | none =>
    simp only [Option.map_none, Option.getD_none]
    omega
  | some p =>
    obtain ⟨c, j⟩ := p
    have listed : (c, j) ∈ xs.zipIdx := (List.mem_filter.mp (List.mem_of_getLast? last)).1
    have within := (List.mem_zipIdx listed).2.1
    simp only [Option.map_some, Option.getD_some]
    omega

theorem start_advance (xs : List Char) :
    start.advance xs = ⟨1 + xs.count '\n', ((xs.length : Int) - lastLineFeed xs).toNat⟩ := by
  induction xs using List.reverseRecOn with
  | nil => rfl
  | append_singleton xs c ih =>
    rw [advance_concat, ih]
    by_cases feed : c = '\n'
    · -- A line feed starts the next line, and the column again counts from it.
      subst feed
      simp [next, lastLineFeed_concat_lineFeed]
      omega
    · -- Any other character, a tab or a carriage return too, moves one column on.
      have before := lastLineFeed_lt xs
      simp [next, feed, lastLineFeed_concat_of_ne feed, List.count_append]
      omega

theorem start_advance_take {cs : List Char} {i : Nat} (within : i ≤ cs.length) :
    start.advance (cs.take i) = ofIndex cs i := by
  rw [start_advance, ofIndex, List.length_take_of_le within]

-- A carriage return stays on its line, and a tab is one column.
example : ofIndex ['a', '\r', '\n', '\t', 'b'] 4 = ⟨2, 2⟩ := by decide

end RingMachine.Position

namespace RingMachine

theorem Position.ofIndex_append (pre post : List Char) :
    Position.ofIndex (pre ++ post) pre.length = Position.start.advance pre := by
  rw [← Position.start_advance_take (by simp), List.take_left]

/-- Reading places every token at the position of its character's index, the end of the text
at the position of its length, an unexpected character at its own index and an unclosed comment
at the index of its `(`: on the line after the line feeds before that index, and as many columns
past the last of them. -/
theorem read_positions_in_closed_form (text : String) :
    (∀ l, Lexed.ofText text = .ok l → ∃ ts, Reads 0 text.toList ts ∧
      (∀ t ∈ ts, text.toList[t.1]? = some t.2.char) ∧
      l.tokens = ts.map (fun t => ⟨t.2, Position.ofIndex text.toList t.1⟩) ∧
      l.endPos = Position.ofIndex text.toList text.length) ∧
    (∀ pre ts c post, Reads 0 pre ts → text.toList = pre ++ c :: post → Stray c →
      Lexed.ofText text = .error (.unexpected c (Position.ofIndex text.toList pre.length))) ∧
    (∀ pre ts body, Reads 0 pre ts → text.toList = pre ++ '(' :: body → ')' ∉ body →
      Lexed.ofText text =
        .error (.unterminatedComment (Position.ofIndex text.toList pre.length))) := by
  refine ⟨?_, ?_, ?_⟩
  · intro l read
    obtain ⟨ts, reads, rfl⟩ := ofChars_eq_ok read
    have indices : ∀ t ∈ ts, text.toList[t.1]? = some t.2.char := fun t listed => by
      simpa using (reads.getElem?_eq t listed).2
    refine ⟨ts, reads, indices, List.map_congr_left fun t listed => ?_, ?_⟩
    · -- A token's index holds its character, so it lies within the text.
      have within : t.1 < text.toList.length := (List.getElem?_eq_some_iff.mp (indices t listed)).1
      simp only [Reads.token, Position.start_advance_take within.le]
    · rw [← String.length_toList, ← Position.start_advance_take le_rfl, List.take_length]
  · intro pre ts c post reads split stray
    rw [Lexed.ofText, split, ofChars_of_stray reads stray, Position.ofIndex_append]
  · intro pre ts body reads split unclosed
    rw [Lexed.ofText, split, ofChars_of_unclosed reads unclosed, Position.ofIndex_append]

end RingMachine

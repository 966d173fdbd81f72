import RingMachine.Program.Token
import Mathlib

/-!
The grammar of program text. Text reads when it is a sequence of blanks, command characters and
comments, a comment being `(`, any text without `)`, and `)`: the regular language
`(W | K | '(' [^)]* ')')*` over the six blanks `W` and the eight command characters `K`.
`Reads i cs ts` is that grammar for text found at index `i` of a program, with the index and
the command of each of its command characters.

Reading text succeeds exactly on the grammar, and then gives one token per command character
outside comments, in order. Otherwise it fails at the first defect: a character that can start
nothing, right after a part that reads, or a comment opened right after such a part and never
closed. Comments do not nest, and the first `)` closes one.
-/

namespace RingMachine

def blanks : List Char := [' ', '\t', '\r', '\n', '\x0c', '\x0b']

def commandChars : List Char := ['!', '*', '>', '^', '_', '{', '|', '}']

def Stray (c : Char) : Prop := c ∉ blanks ∧ c ∉ commandChars ∧ c ≠ '('

instance : DecidablePred Stray := fun c =>
  inferInstanceAs (Decidable (c ∉ blanks ∧ c ∉ commandChars ∧ c ≠ '('))

example : Stray ')' ∧ Stray '\u00a0' ∧ Stray '\u0085' ∧ Stray '\u2028' ∧ ¬ Stray '\x0b' := by
  decide

/-- `Reads i cs ts`: the text `cs`, found at index `i` of a program, is blanks, command
characters and closed comments, and `ts` pairs the index of each command character outside
the comments with its command, in order. -/
inductive Reads : Nat → List Char → List (Nat × Command) → Prop
  | nil {i : Nat} : Reads i [] []
  | blank {i : Nat} {c : Char} {cs : List Char} {ts : List (Nat × Command)} :
      c ∈ blanks → Reads (i + 1) cs ts → Reads i (c :: cs) ts
  | command {i : Nat} {cs : List Char} {ts : List (Nat × Command)} (cmd : Command) :
      Reads (i + 1) cs ts → Reads i (cmd.char :: cs) ((i, cmd) :: ts)
  | comment {i : Nat} {body cs : List Char} {ts : List (Nat × Command)} :
      ')' ∉ body → Reads (i + body.length + 2) cs ts → Reads i ('(' :: body ++ ')' :: cs) ts

section Characters

variable {c : Char}

theorem isBlank_iff : isBlank c = true ↔ c ∈ blanks := by
  simp [isBlank, blanks, or_assoc]

theorem mem_commandChars : c ∈ commandChars ↔ ∃ cmd : Command, cmd.char = c := by
  constructor
  · intro listed
    simp only [commandChars, List.mem_cons, List.not_mem_nil, or_false] at listed
    rcases listed with rfl | rfl | rfl | rfl | rfl | rfl | rfl | rfl
    exacts [⟨.run .halt, rfl⟩, ⟨.run .load, rfl⟩, ⟨.run .rot, rfl⟩, ⟨.run .jmp, rfl⟩, ⟨.nop, rfl⟩,
      ⟨.run .write, rfl⟩, ⟨.run .opr, rfl⟩, ⟨.run .read, rfl⟩]
  · rintro ⟨cmd, rfl⟩
    rcases cmd with ⟨_ | _ | _ | _ | _ | _ | _⟩ | _ <;> decide

theorem Command.char_plain (cmd : Command) :
    cmd.char ∉ blanks ∧ cmd.char ≠ '(' ∧ cmd.char ≠ ')' := by
  rcases cmd with ⟨_ | _ | _ | _ | _ | _ | _⟩ | _ <;> decide

theorem Command.ofChar?_char (cmd : Command) : Command.ofChar? cmd.char = some cmd := by
  rcases cmd with ⟨_ | _ | _ | _ | _ | _ | _⟩ | _ <;> rfl

theorem Command.ofChar?_eq_none (other : c ∉ commandChars) : Command.ofChar? c = none := by
  rw [Command.ofChar?, List.find?_eq_none]
  intro cmd _ same
  exact other (mem_commandChars.mpr ⟨cmd, of_decide_eq_true same⟩)

end Characters

namespace Position

theorem advance_concat (p : Position) (xs : List Char) (c : Char) :
    p.advance (xs ++ [c]) = (p.advance xs).next c := by
  rw [advance_append]
  rfl

theorem advance_cons (p : Position) (c : Char) (xs : List Char) :
    p.advance (c :: xs) = (p.next c).advance xs := rfl

end Position

namespace ReadState

variable {p o : Position} {found : List Token} {c : Char}

theorem feed_blank (blank : c ∈ blanks) :
    feed (.between p found) c = .between (p.next c) found := by
  simp [feed, isBlank_iff.mpr blank]

theorem feed_command (cmd : Command) :
    feed (.between p found) cmd.char = .between (p.next cmd.char) (⟨cmd, p⟩ :: found) := by
  obtain ⟨notBlank, notOpen, -⟩ := cmd.char_plain
  simp [feed, isBlank_iff, notBlank, notOpen, Command.ofChar?_char]

theorem feed_open : feed (.between p found) '(' = .comment p (p.next '(') found := by
  simp [feed, isBlank]

theorem feed_stray (stray : Stray c) : feed (.between p found) c = .stopped (.unexpected c p) := by
  obtain ⟨notBlank, notCommand, notOpen⟩ := stray
  simp [feed, isBlank_iff, notBlank, notOpen, Command.ofChar?_eq_none notCommand]

theorem feed_close : feed (.comment o p found) ')' = .between (p.next ')') found := by
  simp [feed]

theorem feed_inside (inside : c ≠ ')') :
    feed (.comment o p found) c = .comment o (p.next c) found := by
  simp [feed, inside]

theorem foldl_stopped (e : ParseError) (cs : List Char) :
    cs.foldl feed (.stopped e) = .stopped e := by
  induction cs with
  | nil => rfl
  | cons c cs ih => exact ih

theorem foldl_comment {body : List Char} (unclosed : ')' ∉ body) (o p : Position)
    (found : List Token) :
    body.foldl feed (.comment o p found) = .comment o (p.advance body) found := by
  induction body generalizing p with
  | nil => rfl
  | cons c body ih =>
    have ⟨other, rest⟩ : ')' ≠ c ∧ ')' ∉ body := by simpa using unclosed
    rw [List.foldl_cons, feed_inside (Ne.symm other), ih rest]
    rfl

end ReadState

namespace Reads

def token (text : List Char) (t : Nat × Command) : Token :=
  ⟨t.2, Position.start.advance (text.take t.1)⟩

theorem foldl {i : Nat} {cs : List Char} {ts : List (Nat × Command)} (reads : Reads i cs ts) :
    ∀ (pre : List Char) (found : List Token), pre.length = i →
      cs.foldl ReadState.feed (.between (Position.start.advance pre) found) =
        .between (Position.start.advance (pre ++ cs))
          ((ts.map (token (pre ++ cs))).reverse ++ found) := by
  induction reads with
  | nil => simp
  | @blank i c cs ts blank _ ih =>
    intro pre found at_i
    have tail := ih (pre ++ [c]) found (by simp [at_i])
    rw [List.append_assoc, List.singleton_append, Position.advance_concat] at tail
    rw [List.foldl_cons, ReadState.feed_blank blank, tail]
  | @command i cs ts cmd _ ih =>
    intro pre found at_i
    have tail :=
      ih (pre ++ [cmd.char]) (⟨cmd, Position.start.advance pre⟩ :: found) (by simp [at_i])
    rw [List.append_assoc, List.singleton_append, Position.advance_concat] at tail
    rw [List.foldl_cons, ReadState.feed_command, tail]
    -- The new token sits at the end of `pre`, which is where the command character stands.
    simp [token, ← at_i]
  | @comment i body cs ts unclosed _ ih =>
    intro pre found at_i
    have tail := ih (pre ++ ('(' :: body ++ [')'])) found (by simp [at_i]; omega)
    have moved : Position.start.advance (pre ++ ('(' :: body ++ [')'])) =
        (((Position.start.advance pre).next '(').advance body).next ')' := by
      rw [Position.advance_append, List.cons_append, Position.advance_cons,
        Position.advance_concat]
    have text : pre ++ ('(' :: body ++ [')']) ++ cs = pre ++ ('(' :: body ++ ')' :: cs) := by
      simp
    rw [moved, text] at tail
    rw [List.cons_append, List.foldl_cons, ReadState.feed_open, List.foldl_append,
      ReadState.foldl_comment unclosed, List.foldl_cons, ReadState.feed_close]
    exact tail

theorem getElem?_shift {i k : Nat} (pre : List Char) {cs : List Char} (later : i + pre.length ≤ k) :
    (pre ++ cs)[k - i]? = cs[k - (i + pre.length)]? := by
  rw [List.getElem?_append_right (by omega), Nat.sub_sub]

theorem getElem?_eq {i : Nat} {cs : List Char} {ts : List (Nat × Command)}
    (reads : Reads i cs ts) : ∀ t ∈ ts, i ≤ t.1 ∧ cs[t.1 - i]? = some t.2.char := by
  induction reads with
  | nil => simp
  | @blank i c cs ts _ _ ih =>
    intro t listed
    obtain ⟨later, at_t⟩ := ih t listed
    exact ⟨by omega, (getElem?_shift [c] later).trans at_t⟩
  | @command i cs ts cmd _ ih =>
    intro t listed
    rcases List.mem_cons.mp listed with rfl | listed
    · simp
    · obtain ⟨later, at_t⟩ := ih t listed
      exact ⟨by omega, (getElem?_shift [cmd.char] later).trans at_t⟩
  | @comment i body cs ts _ _ ih =>
    intro t listed
    obtain ⟨later, at_t⟩ := ih t listed
    -- The comment, brackets included, stands before the rest of the text.
    have length : ('(' :: body ++ [')']).length = body.length + 2 := by simp
    have split : '(' :: body ++ ')' :: cs = ('(' :: body ++ [')']) ++ cs := by simp
    rw [split]
    refine ⟨by omega, (getElem?_shift _ (by omega)).trans ?_⟩
    rwa [length, ← Nat.add_assoc]

end Reads

/-- How reading a text found at index `i` ends: the text reads, or it has a first defect, a
stray character or a comment never closed, right after a part that reads. -/
def Settled (i : Nat) (cs : List Char) : Prop :=
  (∃ ts, Reads i cs ts) ∨
  (∃ pre ts c post, Reads i pre ts ∧ cs = pre ++ c :: post ∧ Stray c) ∨
  (∃ pre ts body, Reads i pre ts ∧ cs = pre ++ '(' :: body ∧ ')' ∉ body)

theorem Settled.prepend {i : Nat} (lexeme : List Char)
    (extend : List (Nat × Command) → List (Nat × Command))
    (reads : ∀ rest ts, Reads (i + lexeme.length) rest ts → Reads i (lexeme ++ rest) (extend ts))
    {cs : List Char} (settled : Settled (i + lexeme.length) cs) : Settled i (lexeme ++ cs) := by
  -- A lexeme that reads, put in front, keeps whatever outcome the text has.
  rcases settled with ⟨ts, whole⟩ | ⟨pre, ts, c, post, part, rfl, stray⟩ |
    ⟨pre, ts, body, part, rfl, unclosed⟩
  · exact .inl ⟨_, reads _ _ whole⟩
  · exact .inr (.inl ⟨lexeme ++ pre, _, c, post, reads _ _ part, by simp, stray⟩)
  · exact .inr (.inr ⟨lexeme ++ pre, _, body, reads _ _ part, by simp, unclosed⟩)

theorem settled (cs : List Char) (i : Nat) : Settled i cs := by
  induction h : cs.length using Nat.strong_induction_on generalizing cs i with
  | _ n ih =>
    cases cs with
    | nil => exact .inl ⟨[], .nil⟩
    | cons c rest =>
      have shorter : rest.length < n := by simp at h; omega
      -- The first character decides the lexeme: a blank, a command, a comment, or nothing.
      by_cases blank : c ∈ blanks
      · exact Settled.prepend [c] id (fun _ _ r => .blank blank r)
          (ih rest.length shorter rest (i + 1) rfl)
      by_cases command : c ∈ commandChars
      · obtain ⟨cmd, rfl⟩ := mem_commandChars.mp command
        exact Settled.prepend [cmd.char] (List.cons (i, cmd)) (fun _ _ r => .command cmd r)
          (ih rest.length shorter rest (i + 1) rfl)
      by_cases opens : c = '('
      · subst opens
        by_cases closes : ')' ∈ rest
        · obtain ⟨body, after, rfl, unclosed⟩ := List.eq_append_cons_of_mem closes
          have tail := ih after.length (by simp at shorter; omega) after
            (i + ('(' :: body ++ [')']).length) rfl
          have whole := Settled.prepend ('(' :: body ++ [')']) id
            (fun rest ts r => by
              simpa using Reads.comment unclosed (by simpa [Nat.add_assoc] using r))
            tail
          simpa using whole
        · exact .inr (.inr ⟨[], [], rest, .nil, rfl, closes⟩)
      · exact .inr (.inl ⟨[], [], c, rest, .nil, rfl, blank, command, opens⟩)

section Lexer

variable {cs pre post body : List Char} {ts : List (Nat × Command)} {c : Char}

theorem Reads.foldl_start (reads : Reads 0 cs ts) :
    cs.foldl ReadState.feed (.between .start []) =
      .between (Position.start.advance cs) (ts.map (Reads.token cs)).reverse := by
  simpa using reads.foldl [] [] rfl

theorem ofChars_of_reads (reads : Reads 0 cs ts) :
    Lexed.ofChars cs = .ok ⟨ts.map (Reads.token cs), Position.start.advance cs⟩ := by
  simp [Lexed.ofChars, reads.foldl_start, ReadState.finish]

theorem ofChars_of_stray (reads : Reads 0 pre ts) (stray : Stray c) :
    Lexed.ofChars (pre ++ c :: post) = .error (.unexpected c (Position.start.advance pre)) := by
  rw [Lexed.ofChars, List.foldl_append, reads.foldl_start, List.foldl_cons,
    ReadState.feed_stray stray, ReadState.foldl_stopped]
  rfl

theorem ofChars_of_unclosed (reads : Reads 0 pre ts) (unclosed : ')' ∉ body) :
    Lexed.ofChars (pre ++ '(' :: body) =
      .error (.unterminatedComment (Position.start.advance pre)) := by
  -- The comment takes the rest of the text, and the text ends inside it.
  rw [Lexed.ofChars, List.foldl_append, reads.foldl_start, List.foldl_cons, ReadState.feed_open,
    ReadState.foldl_comment unclosed]
  rfl

theorem ofChars_eq_ok {l : Lexed} (read : Lexed.ofChars cs = .ok l) :
    ∃ ts, Reads 0 cs ts ∧ l = ⟨ts.map (Reads.token cs), Position.start.advance cs⟩ := by
  rcases settled cs 0 with ⟨ts, reads⟩ | ⟨pre, ts, c, post, reads, rfl, stray⟩ |
    ⟨pre, ts, body, reads, rfl, unclosed⟩
  · rw [ofChars_of_reads reads, Except.ok.injEq] at read
    exact ⟨ts, reads, read.symm⟩
  · rw [ofChars_of_stray reads stray] at read
    cases read
  · rw [ofChars_of_unclosed reads unclosed] at read
    cases read

theorem ofChars_eq_error {e : ParseError} (refused : Lexed.ofChars cs = .error e) :
    (∃ pre ts c post, Reads 0 pre ts ∧ cs = pre ++ c :: post ∧ Stray c ∧
      e = .unexpected c (Position.start.advance pre)) ∨
    (∃ pre ts body, Reads 0 pre ts ∧ cs = pre ++ '(' :: body ∧ ')' ∉ body ∧
      e = .unterminatedComment (Position.start.advance pre)) := by
  rcases settled cs 0 with ⟨ts, reads⟩ | ⟨pre, ts, c, post, reads, rfl, stray⟩ |
    ⟨pre, ts, body, reads, rfl, unclosed⟩
  · rw [ofChars_of_reads reads] at refused
    cases refused
  · rw [ofChars_of_stray reads stray, Except.error.injEq] at refused
    exact .inl ⟨pre, ts, c, post, reads, rfl, stray, refused.symm⟩
  · rw [ofChars_of_unclosed reads unclosed, Except.error.injEq] at refused
    exact .inr ⟨pre, ts, body, reads, rfl, unclosed, refused.symm⟩

end Lexer

/-- Reading program text succeeds exactly when the text is blanks, command characters and
comments closed by their first `)`; it then gives one token per command character outside the
comments, in text order, each the command its character writes. Otherwise it fails at the first
defect: at a character that is no blank, no command character and no `(`, right after a part
that reads, or at a comment opened right after such a part and never closed. -/
theorem reading_accepts_exactly_the_grammar (text : String) :
    ((∃ l, Lexed.ofText text = .ok l) ↔ ∃ ts, Reads 0 text.toList ts) ∧
    (∀ l ts, Lexed.ofText text = .ok l → Reads 0 text.toList ts →
      l.tokens.map Token.command = ts.map Prod.snd ∧
      ∀ t ∈ ts, text.toList[t.1]? = some t.2.char) ∧
    (∀ e, Lexed.ofText text = .error e →
      (∃ pre ts c post, Reads 0 pre ts ∧ text.toList = pre ++ c :: post ∧ Stray c ∧
        ∃ p, e = .unexpected c p) ∨
      (∃ pre ts body, Reads 0 pre ts ∧ text.toList = pre ++ '(' :: body ∧ ')' ∉ body ∧
        ∃ p, e = .unterminatedComment p)) ∧
    (∀ pre ts c post, Reads 0 pre ts → text.toList = pre ++ c :: post → Stray c →
      ∃ p, Lexed.ofText text = .error (.unexpected c p)) ∧
    (∀ pre ts body, Reads 0 pre ts → text.toList = pre ++ '(' :: body → ')' ∉ body →
      ∃ p, Lexed.ofText text = .error (.unterminatedComment p)) := by
  refine ⟨⟨fun ⟨l, read⟩ => ?_, fun ⟨ts, reads⟩ => ⟨_, ofChars_of_reads reads⟩⟩, ?_, ?_,
    fun pre ts c post reads split stray => ⟨_, split ▸ ofChars_of_stray reads stray⟩,
    fun pre ts body reads split unclosed => ⟨_, split ▸ ofChars_of_unclosed reads unclosed⟩⟩
  · obtain ⟨ts, reads, -⟩ := ofChars_eq_ok read
    exact ⟨ts, reads⟩
  · intro l ts read reads
    -- The tokens read are those of the grammar's own reading.
    rw [Lexed.ofText, ofChars_of_reads reads, Except.ok.injEq] at read
    subst read
    refine ⟨by simp [Reads.token], fun t listed => ?_⟩
    simpa using (reads.getElem?_eq t listed).2
  · intro e refused
    rcases ofChars_eq_error refused with ⟨pre, ts, c, post, reads, split, stray, rfl⟩ |
      ⟨pre, ts, body, reads, split, unclosed, rfl⟩
    · exact .inl ⟨pre, ts, c, post, reads, split, stray, _, rfl⟩
    · exact .inr ⟨pre, ts, body, reads, split, unclosed, _, rfl⟩

end RingMachine

/-!
# Plain text

Text may hold control sequences, which tell a terminal how to show what follows. On a stream that is
no terminal they say nothing: they are left out, together with the control characters that are not
white space. White space is shown even where a sequence has not ended, and ends it.

* `visible_eq_self`: text without control characters is shown as it is.
-/

namespace PageCache.CommandLine

/-- Where a control sequence stands. -/
inductive Sequence
  | closed
  /-- An escape character has opened it. -/
  | escape
  /-- One more character will end it. -/
  | short
  /-- It goes on up to a letter, or another character that may end a command. -/
  | command
  /-- It goes on up to a bell. -/
  | title
  /-- It goes on up to the byte that terminates such blocks. -/
  | block
deriving DecidableEq

def isControl (c : Char) : Bool :=
  c < ' ' || c = '\x7f'

/-- White space among the control characters. -/
def isBlankControl (c : Char) : Bool :=
  c = '\t' || c = '\n' || c = '\x0c' || c = '\r'

namespace Sequence

/-- Whether `c` is shown where the sequence stands at `s`. -/
def shows (s : Sequence) (c : Char) : Bool :=
  match s with
  | closed => !isControl c || isBlankControl c
  | escape | short | command => isBlankControl c
  | title | block => false

/-- Where the sequence stands after `c`. An escape character opens a new one wherever it stands. -/
def next (s : Sequence) (c : Char) : Sequence :=
  if c = '\x1b' then escape
  else if c = '\x18' || c = '\x1a' || s.shows c then closed
  else
    match s with
    | closed => closed
    | escape =>
      if c = '[' then command
      else if c = ']' then title
      else if c = 'P' || c = 'X' || c = '^' || c = '_' then block
      else if ' ' ≤ c && c ≤ '/' then short
      else if '0' ≤ c && c ≤ '~' then closed
      else escape
    | short => if '0' ≤ c && c ≤ '~' then closed else short
    | command => if '@' ≤ c && c ≤ '~' then closed else command
    | title => if c = '\x07' then closed else title
    | block => if (String.utf8EncodeChar c).contains 0x9c then closed else block

end Sequence

/-- What is shown of `text` where the sequence before it stands at `s`. -/
def visible (s : Sequence) : List Char → List Char
  | [] => []
  | c :: text => if s.shows c then c :: visible (s.next c) text else visible (s.next c) text

/-- What is left of a text on a stream that is no terminal. -/
def plain (text : String) : String :=
  String.ofList (visible .closed text.toList)

/-! ## Laws -/

theorem next_closed_of_not_isControl {c : Char} (h : isControl c = false) :
    Sequence.closed.next c = .closed := by
  have hne : c ≠ '\x1b' := by
    rintro rfl
    exact absurd h (by decide)
  simp [Sequence.next, Sequence.shows, h, hne]

theorem visible_eq_self {text : List Char} (h : ∀ c ∈ text, isControl c = false) :
    visible .closed text = text := by
  induction text with
  | nil => rfl
  | cons c text ih =>
    have hc : isControl c = false := h c List.mem_cons_self
    have hshows : Sequence.closed.shows c = true := by simp [Sequence.shows, hc]
    rw [visible, if_pos hshows, next_closed_of_not_isControl hc,
      ih fun d hd => h d (List.mem_cons_of_mem c hd)]

end PageCache.CommandLine

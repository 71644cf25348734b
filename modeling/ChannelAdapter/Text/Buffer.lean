import ChannelAdapter.Text.Width
/-!
Texts that grow at their end. A buffer holds its characters backwards and keeps count of their
bytes, so that appending costs no more than what is appended.
-/

namespace ChannelAdapter.Text

structure Buffer where
  /-- The characters, the last one first. -/
  backwards : List Char
  width : Nat
  width_eq : width = Text.width backwards
  deriving DecidableEq, Repr

namespace Buffer

def empty : Buffer := ⟨[], 0, rfl⟩

def push (b : Buffer) (c : Char) : Buffer :=
  ⟨c :: b.backwards, b.width + c.utf8Size, by rw [width_cons, b.width_eq, Nat.add_comm]⟩

def append (b : Buffer) (cs : List Char) : Buffer :=
  cs.foldl push b

def isEmpty (b : Buffer) : Bool :=
  b.backwards.isEmpty

def text (b : Buffer) : List Char :=
  b.backwards.reverse

@[simp] theorem text_empty : empty.text = [] := rfl

theorem text_push (b : Buffer) (c : Char) : (b.push c).text = b.text ++ [c] :=
  List.reverse_cons

@[simp] theorem text_append (b : Buffer) (cs : List Char) : (b.append cs).text = b.text ++ cs := by
  induction cs generalizing b with
  | nil => simp [append]
  | cons c cs ih => rw [append, List.foldl_cons, ← append, ih, text_push]; simp

theorem isEmpty_iff {b : Buffer} : b.isEmpty = true ↔ b.text = [] := by
  simp [isEmpty, text]

private theorem width_reverse (cs : List Char) : Text.width cs.reverse = Text.width cs := by
  induction cs with
  | nil => rfl
  | cons c cs ih => rw [List.reverse_cons, width_append, ih, Nat.add_comm]; simp

theorem width_text (b : Buffer) : Text.width b.text = b.width := by
  rw [text, width_reverse, b.width_eq]

end Buffer

end ChannelAdapter.Text

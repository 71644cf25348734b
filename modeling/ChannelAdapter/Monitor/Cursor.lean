import ChannelAdapter.Calendar
/-!
Cursors: how far a monitor has got. An unset cursor says nothing, so it never replaces another.
-/

namespace ChannelAdapter

class Cursor (κ : Type) where
  isUnset : κ → Bool

namespace Cursor

instance : Cursor Nat := ⟨(· == 0)⟩

instance : Cursor Int := ⟨(· == 0)⟩

instance : Cursor String := ⟨String.isEmpty⟩

instance : Cursor Calendar.Instant := ⟨(· == ⟨0, 0⟩)⟩

/-- The cursor after one that may have been given. -/
def next {κ : Type} [Cursor κ] (current : κ) : Option κ → κ
  | none => current
  | some c => if isUnset c then current else c

end Cursor

end ChannelAdapter

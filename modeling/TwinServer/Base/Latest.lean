-- SUMMARY: Delivery of the latest: what is on its way keeps the order of a list and has its last item.
import Mathlib.Data.List.Basic

/-!
# Delivering the latest

A source publishes items and a sender passes them on, one at a time. Items that wait may be overtaken
by newer ones, but the newest is always among those that have arrived or are on their way.
-/

namespace Delivery

variable {α : Type}

/-- What has arrived and is on its way, of what was published. -/
structure Latest (published arriving : List α) : Prop where
  ordered : arriving.Sublist published
  last : arriving.getLast? = published.getLast?

namespace Latest

variable {published arriving kept : List α}

theorem refl (l : List α) : Latest l l := ⟨.refl l, rfl⟩

/-- A newest item may overtake any of those that are on their way. -/
theorem publish (h : Latest published arriving) (hkept : kept.Sublist arriving) (x : α) :
    Latest (published ++ [x]) (kept ++ [x]) := by
  constructor
  · apply List.Sublist.append _ (.refl [x])
    exact hkept.trans h.ordered
  · simp only [List.getLast?_concat]

/-- What has arrived is in order when nothing of it is lost on its way. -/
theorem arrived {waiting : List α} (h : Latest published (kept ++ waiting)) : kept.Sublist published :=
  (List.sublist_append_left kept waiting).trans h.ordered

end Latest

end Delivery

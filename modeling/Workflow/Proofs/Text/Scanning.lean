/-!
# Scanning

A greedy reader takes what belongs to a part of a text, and leaves the rest. If no part can begin
with a character that could go on with the part before it, the parts are found again as they were
put together.
-/

namespace Workflow

variable {α : Type} {p : α → Bool} {front rest : List α}

/-- What has been scanned ends where the first element is that does not belong to it. -/
theorem takeWhile_append_of_head (hall : ∀ a ∈ front, p a = true)
    (hhead : ∀ a ∈ rest.head?, p a = false) : (front ++ rest).takeWhile p = front := by
  rw [List.takeWhile_append_of_pos hall]
  cases rest with
  | nil => simp
  | cons a rest => simp [hhead a rfl]

theorem dropWhile_append_of_head (hall : ∀ a ∈ front, p a = true)
    (hhead : ∀ a ∈ rest.head?, p a = false) : (front ++ rest).dropWhile p = rest := by
  rw [List.dropWhile_append_of_pos hall]
  cases rest with
  | nil => simp
  | cons a rest => simp [hhead a rfl]

end Workflow

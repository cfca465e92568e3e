/-!
# Splitting at separators

`split p` cuts a text at every character in `p`.  It always gives at least one field.  The fields
hold no separator (`eq_false_of_mem_split`), and joining them gives the text back (`join_split`).
-/

namespace RouteDispatch
namespace Text

/-- Puts a character in front of the first field. -/
def consField (c : Char) : List (List Char) → List (List Char)
  | [] => [[c]]
  | field :: fields => (c :: field) :: fields

/-- The fields of a text between the characters in `p`; there is one more than separators. -/
def split (p : Char → Bool) : List Char → List (List Char)
  | [] => [[]]
  | c :: cs => if p c then [] :: split p cs else consField c (split p cs)

theorem split_ne_nil (p : Char → Bool) (cs : List Char) : split p cs ≠ [] := by
  cases cs with
  | nil => simp [split]
  | cons c cs =>
    rw [split]
    split
    next => simp
    next => cases split p cs <;> simp [consField]

/-- A field holds no separator. -/
theorem eq_false_of_mem_split {p : Char → Bool} {cs field : List Char} (h : field ∈ split p cs) :
    ∀ c ∈ field, p c = false := by
  induction cs generalizing field with
  | nil => simp_all [split]
  | cons c cs ih =>
    rw [split] at h
    split at h
    next =>
      rcases List.mem_cons.1 h with rfl | h
      · simp
      · exact ih h
    next hc =>
      obtain ⟨first, rest, hs⟩ := List.exists_cons_of_ne_nil (split_ne_nil p cs)
      rw [hs, consField] at h
      rcases List.mem_cons.1 h with rfl | h
      · intro x hx
        rcases List.mem_cons.1 hx with rfl | hx
        · simpa using hc
        · exact ih (hs ▸ List.mem_cons_self) x hx
      · exact ih (hs ▸ List.mem_cons_of_mem _ h)

/-- The non-empty fields of a text between the characters in `p`. -/
def pieces (p : Char → Bool) (cs : List Char) : List (List Char) :=
  (split p cs).filter fun field => !field.isEmpty

/-- Writes fields one after the other with `sep` between them. -/
def join (sep : Char) : List (List Char) → List Char
  | [] => []
  | [field] => field
  | field :: fields => field ++ sep :: join sep fields

theorem join_consField (sep c : Char) {fields : List (List Char)} (h : fields ≠ []) :
    join sep (consField c fields) = c :: join sep fields := by
  match fields with
  | [] => exact absurd rfl h
  | [_] => rfl
  | _ :: _ :: _ => rfl

/-- Joining the fields with the separator gives the text back. -/
theorem join_split (sep : Char) (cs : List Char) : join sep (split (· == sep) cs) = cs := by
  induction cs with
  | nil => rfl
  | cons c cs ih =>
    rw [split]
    split
    next h =>
      obtain ⟨field, rest, hs⟩ := List.exists_cons_of_ne_nil (split_ne_nil (· == sep) cs)
      rw [hs] at ih ⊢
      rw [join, ih, beq_iff_eq.1 h, List.nil_append]
      simp
    next => rw [join_consField sep c (split_ne_nil _ cs), ih]

/-- The text before the first character in `p`, and the text after it if there is one. -/
def cutAt (p : Char → Bool) : List Char → List Char × Option (List Char)
  | [] => ([], none)
  | c :: cs =>
    if p c then ([], some cs)
    else
      let (before, after) := cutAt p cs
      (c :: before, after)

/-- Writes texts one after the other with `sep` between them. -/
def joinTexts (sep : String) : List String → String
  | [] => ""
  | [s] => s
  | s :: rest => s ++ sep ++ joinTexts sep rest

end Text
end RouteDispatch

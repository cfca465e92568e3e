/-!
# Trimming

Dropping characters of one class from the ends of a text.  Blanks are the characters of the
Unicode property `White_Space`, which is wider than the blanks of ASCII: it has the no-break
space and the ideographic space, but neither the zero-width space nor the byte order mark.
-/

namespace RouteDispatch
namespace Text

/-- `dropEnd p cs` drops the longest run of characters in `p` at the end of `cs`. -/
def dropEnd (p : Char → Bool) : List Char → List Char
  | [] => []
  | c :: cs =>
    match dropEnd p cs with
    | [] => if p c then [] else [c]
    | rest => c :: rest

/-- Nothing is left exactly when all characters are in `p`. -/
theorem dropEnd_eq_nil_iff {p : Char → Bool} {cs : List Char} :
    dropEnd p cs = [] ↔ ∀ c ∈ cs, p c = true := by
  induction cs with
  | nil => simp [dropEnd]
  | cons c cs ih =>
    rw [dropEnd]
    split
    next h =>
      have hall := ih.1 h
      cases hp : p c <;> simp_all
    next h =>
      constructor
      · simp
      · intro hall
        exact absurd (ih.2 fun d hd => hall d (List.mem_cons_of_mem _ hd)) h

/-- `trimBoth p cs` drops the runs of characters in `p` at both ends of `cs`. -/
def trimBoth (p : Char → Bool) (cs : List Char) : List Char :=
  dropEnd p (cs.dropWhile p)

/-- The ranges of the property `White_Space`, ends included. -/
def blankRanges : List (Nat × Nat) :=
  [(0x09, 0x0D), (0x20, 0x20), (0x85, 0x85), (0xA0, 0xA0), (0x1680, 0x1680),
   (0x2000, 0x200A), (0x2028, 0x2029), (0x202F, 0x202F), (0x205F, 0x205F),
   (0x3000, 0x3000)]

/-- A blank is a character with the property `White_Space`. -/
def isBlank (c : Char) : Bool :=
  blankRanges.any fun r => r.1 ≤ c.toNat && c.toNat ≤ r.2

def trimBlanks (s : String) : String :=
  String.ofList (trimBoth isBlank s.toList)

/-- A solidus, which separates the segments of a path. -/
def isSolidus (c : Char) : Bool :=
  c == '/'

end Text
end RouteDispatch

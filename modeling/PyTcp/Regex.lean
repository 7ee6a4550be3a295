import Mathlib.Data.List.Infix

namespace PyTcp

/-- The part of Python's regular expressions that `IP6_REGEX` is written in: a character class,
concatenation, alternation `|` and a bounded repeat `{lo,hi}`. Its groups `( )` only bracket. -/
inductive Re
  | chars (member : Char → Bool)
  | cat (first second : Re)
  | alt (left right : Re)
  | rep (body : Re) (lo hi : Nat)

/-- Every way to cut a string in two. -/
def cuts (text : List Char) : List (List Char × List Char) :=
  (List.range (text.length + 1)).map fun k => (text.take k, text.drop k)

/-- The string is `n` pieces in a row, each accepted by `piece`. -/
def fullmatchPow (piece : List Char → Bool) : Nat → List Char → Bool
  | 0, text => text.isEmpty
  | n + 1, text => (cuts text).any fun cut => piece cut.1 && fullmatchPow piece n cut.2

namespace Re

/-- `re.fullmatch`: whether the whole string is in the expression's language. -/
def fullmatch : Re → List Char → Bool
  | chars member, text =>
    match text with
    | [c] => member c
    | _ => false
  | cat first second, text => (cuts text).any fun cut => first.fullmatch cut.1 && second.fullmatch cut.2
  | alt left right, text => left.fullmatch text || right.fullmatch text
  | rep body lo hi, text => (List.range' lo (hi + 1 - lo)).any fun n => fullmatchPow body.fullmatch n text

end Re

/-- `re.search(pattern, text)` is not `None`: some substring is in the pattern's language. The
backtracking search finds a match whenever one exists; which one it returns does not matter to
a caller that only tests it. -/
def search (pattern : Re) (text : List Char) : Bool :=
  text.tails.any fun tail => tail.inits.any pattern.fullmatch

theorem mem_cuts {text first second : List Char} :
    (first, second) ∈ cuts text ↔ first ++ second = text := by
  simp only [cuts, List.mem_map, List.mem_range, Prod.mk.injEq]
  constructor
  · rintro ⟨k, -, rfl, rfl⟩
    exact List.take_append_drop k text
  · rintro rfl
    exact ⟨first.length, by simp only [List.length_append]; omega, List.take_left' rfl,
      List.drop_left' rfl⟩

theorem any_cuts_iff {text : List Char} {accept : List Char × List Char → Bool} :
    (cuts text).any accept = true ↔
      ∃ first second, first ++ second = text ∧ accept (first, second) = true := by
  simp only [List.any_eq_true, Prod.exists, mem_cuts]

theorem fullmatchPow_iff {piece : List Char → Bool} : ∀ {n : Nat} {text : List Char},
    fullmatchPow piece n text = true ↔ ∃ parts : List (List Char), parts.length = n ∧
      (∀ part ∈ parts, piece part = true) ∧ parts.flatten = text
  | 0, text => by
    simp only [fullmatchPow, List.isEmpty_iff, List.length_eq_zero]
    constructor
    · rintro rfl
      exact ⟨[], rfl, nofun, rfl⟩
    · rintro ⟨_, rfl, -, rfl⟩
      rfl
  | n + 1, text => by
    simp only [fullmatchPow, any_cuts_iff, Bool.and_eq_true, fullmatchPow_iff]
    constructor
    · rintro ⟨first, second, rfl, accepted, parts, length, each, rfl⟩
      refine ⟨first :: parts, by rw [List.length_cons, length], fun part member => ?_, rfl⟩
      rcases List.mem_cons.mp member with rfl | later
      exacts [accepted, each part later]
    · rintro ⟨_ | ⟨first, parts⟩, length, each, rfl⟩
      · cases length
      · exact ⟨first, parts.flatten, rfl, each first (List.mem_cons_self _ _), parts,
          Nat.succ.inj length, fun part member => each part (List.mem_cons_of_mem _ member), rfl⟩

namespace Re

variable {text : List Char}

theorem fullmatch_chars {member : Char → Bool} :
    (chars member).fullmatch text = true ↔ ∃ c, text = [c] ∧ member c = true := by
  match text with
  | [] => simp [fullmatch]
  | [c] => simp [fullmatch]
  | _ :: _ :: _ => simp [fullmatch]

theorem fullmatch_cat {first second : Re} :
    (cat first second).fullmatch text = true ↔
      ∃ front back, front ++ back = text ∧ first.fullmatch front = true ∧
        second.fullmatch back = true := by
  simp only [fullmatch, any_cuts_iff, Bool.and_eq_true]

theorem fullmatch_alt {left right : Re} :
    (alt left right).fullmatch text = true ↔ left.fullmatch text = true ∨ right.fullmatch text = true := by
  simp only [fullmatch, Bool.or_eq_true]

/-- `{lo,hi}`: between `lo` and `hi` pieces in a row, each in the body's language. -/
theorem fullmatch_rep {body : Re} {lo hi : Nat} :
    (rep body lo hi).fullmatch text = true ↔ ∃ parts : List (List Char), lo ≤ parts.length ∧
      parts.length ≤ hi ∧ (∀ part ∈ parts, body.fullmatch part = true) ∧ parts.flatten = text := by
  simp only [fullmatch, List.any_eq_true, List.mem_range', fullmatchPow_iff]
  constructor
  · rintro ⟨_, ⟨i, below, rfl⟩, parts, length, each, joined⟩
    exact ⟨parts, by omega, by omega, each, joined⟩
  · rintro ⟨parts, atLeast, atMost, each, joined⟩
    exact ⟨parts.length, ⟨parts.length - lo, by omega, by omega⟩, parts, rfl, each, joined⟩

end Re

theorem search_iff {pattern : Re} {text : List Char} :
    search pattern text = true ↔ ∃ piece, piece <:+: text ∧ pattern.fullmatch piece = true := by
  simp only [search, List.any_eq_true, List.mem_tails, List.mem_inits]
  constructor
  · rintro ⟨tail, ⟨front, rfl⟩, piece, ⟨back, rfl⟩, accepted⟩
    exact ⟨piece, ⟨front, back, List.append_assoc _ _ _⟩, accepted⟩
  · rintro ⟨piece, ⟨front, back, rfl⟩, accepted⟩
    exact ⟨piece ++ back, ⟨front, (List.append_assoc _ _ _).symm⟩, piece, ⟨back, rfl⟩, accepted⟩

end PyTcp

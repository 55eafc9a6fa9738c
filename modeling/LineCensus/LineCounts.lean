/-!
# `LineCounts` — kinds of lines and how many there are of each

## Contents
- `LineKind`, the four kinds.
- `LineCounts`, the number of lines and of those in each bucket. A region tag counts in the total alone.
-/

namespace LineCensus

/-- The kind of a line. -/
inductive LineKind where
  /-- A tag that opens or closes an embedded region. -/
  | regionTag
  | comment
  | empty
  | code
  deriving DecidableEq, Repr

/-- How many lines there are, and how many are empty, comments and code. -/
@[ext] structure LineCounts where
  total : Nat
  empty : Nat
  comment : Nat
  code : Nat
  deriving DecidableEq, Repr

namespace LineCounts

/-- No lines. -/
def zero : LineCounts := ⟨0, 0, 0, 0⟩

instance : Zero LineCounts := ⟨zero⟩

/-- The counts of two sets of lines together. -/
def add (a b : LineCounts) : LineCounts :=
  ⟨a.total + b.total, a.empty + b.empty, a.comment + b.comment, a.code + b.code⟩

instance : Add LineCounts := ⟨add⟩

/-- The lines that fall into one of the three buckets. -/
def classified (n : LineCounts) : Nat := n.empty + n.comment + n.code

/-- One line more. -/
def tick (n : LineCounts) : LineKind → LineCounts
  | .regionTag => { n with total := n.total + 1 }
  | .comment => { n with total := n.total + 1, comment := n.comment + 1 }
  | .empty => { n with total := n.total + 1, empty := n.empty + 1 }
  | .code => { n with total := n.total + 1, code := n.code + 1 }

@[simp] theorem zero_total : (0 : LineCounts).total = 0 := rfl
@[simp] theorem zero_empty : (0 : LineCounts).empty = 0 := rfl
@[simp] theorem zero_comment : (0 : LineCounts).comment = 0 := rfl
@[simp] theorem zero_code : (0 : LineCounts).code = 0 := rfl
@[simp] theorem add_total (a b : LineCounts) : (a + b).total = a.total + b.total := rfl
@[simp] theorem add_empty (a b : LineCounts) : (a + b).empty = a.empty + b.empty := rfl
@[simp] theorem add_comment (a b : LineCounts) : (a + b).comment = a.comment + b.comment := rfl
@[simp] theorem add_code (a b : LineCounts) : (a + b).code = a.code + b.code := rfl

@[simp] theorem zero_add (n : LineCounts) : 0 + n = n := by
  ext <;> simp

end LineCounts

end LineCensus

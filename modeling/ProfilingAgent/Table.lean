set_option autoImplicit false

/-!
# Numbered tables

Rows that are numbered from zero on. A row that is not there reads as the default, and putting one
there fills the gap before it, so that what was put is read back whatever its number.
-/
namespace ProfilingAgent

structure Table (α : Type) where
  rows : List α
deriving DecidableEq, Repr

namespace Table

variable {α : Type}

def empty : Table α := ⟨[]⟩

instance : Inhabited (Table α) := ⟨empty⟩

def size (t : Table α) : Nat := t.rows.length

def push (t : Table α) (a : α) : Table α := ⟨t.rows ++ [a]⟩

theorem size_push (t : Table α) (a : α) : (t.push a).size = t.size + 1 := by
  simp [push, size]

variable [Inhabited α]

def rowOf : List α → Nat → α
  | [], _ => default
  | a :: _, 0 => a
  | _ :: rest, i + 1 => rowOf rest i

def withRow : List α → Nat → α → List α
  | [], 0, b => [b]
  | [], i + 1, b => default :: withRow [] i b
  | _ :: rest, 0, b => b :: rest
  | a :: rest, i + 1, b => a :: withRow rest i b

def row (t : Table α) (i : Nat) : α := rowOf t.rows i

instance : CoeFun (Table α) fun _ => Nat → α := ⟨row⟩

def put (t : Table α) (i : Nat) (a : α) : Table α := ⟨withRow t.rows i a⟩

def update (t : Table α) (i : Nat) (f : α → α) : Table α := t.put i (f (t i))

theorem rowOf_withRow (as : List α) (i j : Nat) (a : α) :
    rowOf (withRow as i a) j = if j = i then a else rowOf as j := by
  induction i generalizing as j with
  | zero => cases as <;> cases j <;> simp [withRow, rowOf]
  | succ i ih => cases as <;> cases j <;> simp [withRow, rowOf, ih]

theorem put_row (t : Table α) (i j : Nat) (a : α) :
    (t.put i a) j = if j = i then a else t j := rowOf_withRow t.rows i j a

theorem update_row (t : Table α) (i j : Nat) (f : α → α) :
    (t.update i f) j = if j = i then f (t i) else t j := put_row t i j (f (t i))

theorem push_row (t : Table α) (a : α) (j : Nat) :
    (t.push a) j = if j = t.size then a else t j := by
  obtain ⟨as⟩ := t
  simp only [push, row, size]
  induction as generalizing j with
  | nil => cases j <;> simp [rowOf]
  | cons b as ih =>
    cases j with
    | zero => simp [rowOf]
    | succ j => by_cases h : j = as.length <;> simp [rowOf, ih, h]

theorem rowOf_length (as : List α) : rowOf as as.length = default := by
  induction as with
  | nil => rfl
  | cons _ _ ih => exact ih

theorem row_size (t : Table α) : t t.size = default := rowOf_length t.rows

theorem row_of_size_le (t : Table α) {i : Nat} (h : t.size ≤ i) : t i = default := by
  obtain ⟨as⟩ := t
  simp only [row, size] at h ⊢
  induction as generalizing i with
  | nil => cases i <;> rfl
  | cons a as ih =>
    cases i with
    | zero => simp at h
    | succ i => exact ih (Nat.le_of_succ_le_succ h)

theorem put_row_self (t : Table α) {i : Nat} (h : i < t.size) : t.put i (t i) = t := by
  obtain ⟨as⟩ := t
  simp only [put, row, size, mk.injEq] at h ⊢
  induction as generalizing i with
  | nil => simp at h
  | cons a as ih =>
    cases i with
    | zero => rfl
    | succ i =>
      rw [rowOf, withRow, ih (Nat.lt_of_succ_lt_succ h)]

theorem length_withRow (as : List α) (i : Nat) (a : α) :
    (withRow as i a).length = max as.length (i + 1) := by
  induction i generalizing as with
  | zero => cases as <;> simp [withRow]
  | succ i ih => cases as <;> simp [withRow, ih]

theorem size_put (t : Table α) (i : Nat) (a : α) : (t.put i a).size = max t.size (i + 1) :=
  length_withRow t.rows i a

theorem withRow_withRow (as : List α) (i : Nat) (a b : α) :
    withRow (withRow as i a) i b = withRow as i b := by
  induction i generalizing as with
  | zero => cases as <;> rfl
  | succ i ih => cases as <;> simp [withRow, ih]

theorem put_put (t : Table α) (i : Nat) (a b : α) : (t.put i a).put i b = t.put i b :=
  congrArg Table.mk (withRow_withRow t.rows i a b)

end Table
end ProfilingAgent

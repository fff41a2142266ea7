set_option autoImplicit false

namespace ProfilingAgent.Text

def digit (d : Nat) : Char := Char.ofNat (if d < 10 then 48 + d else 87 + d)

def decimal (n : Nat) : List Char :=
  if n < 10 then [digit n] else decimal (n / 10) ++ [digit (n % 10)]

def hexadecimal (n : Nat) : List Char :=
  if n < 16 then [digit n] else hexadecimal (n / 16) ++ [digit (n % 16)]

def decimalInt : Int → List Char
  | .ofNat n => decimal n
  | .negSucc n => '-' :: decimal (n + 1)

def numeral (n : Nat) : String := String.ofList (decimal n)

def hexPadded (width n : Nat) : List Char :=
  let ds := hexadecimal n
  List.replicate (width - ds.length) '0' ++ ds

def digitsValue (ds : List Char) : Nat := ds.foldl (fun n c => n * 10 + (c.toNat - 48)) 0

def digits? (ds : List Char) : Option Nat :=
  if ds.isEmpty || !ds.all Char.isDigit then none else some (digitsValue ds)

def natural? : List Char → Option Nat
  | '+' :: ds => digits? ds
  | ds => digits? ds

def integer? : List Char → Option Int
  | '-' :: ds => (digits? ds).map fun n => -(n : Int)
  | cs => (natural? cs).map Int.ofNat

def tenTo (k : Nat) : Nat := Nat.pow 10 k

def hexValue (c : Char) : Option Nat :=
  if c.isDigit then some (c.toNat - 48)
  else if 'a' ≤ c ∧ c ≤ 'f' then some (c.toNat - 87)
  else if 'A' ≤ c ∧ c ≤ 'F' then some (c.toNat - 55)
  else none

def character? (values : List Nat) : Option Char :=
  let n := values.foldl (fun n d => n * 16 + d) 0
  if n < 0xD800 ∨ (0xDFFF < n ∧ n < 0x110000) then some (Char.ofNat n) else none

theorem digit_isDigit : ∀ d, d < 10 → (digit d).isDigit = true := by decide

theorem digit_value : ∀ d, d < 10 → (digit d).toNat - 48 = d := by decide

theorem digitsValue_append (ds : List Char) (c : Char) :
    digitsValue (ds ++ [c]) = digitsValue ds * 10 + (c.toNat - 48) := by
  simp [digitsValue, List.foldl_append]

theorem digitsValue_decimal (n : Nat) : digitsValue (decimal n) = n := by
  rw [decimal]
  split
  · rename_i h
    simp [digitsValue, digit_value n h]
  · rw [digitsValue_append, digitsValue_decimal (n / 10), digit_value _ (Nat.mod_lt _ (by decide))]
    omega
termination_by n

theorem decimal_all_isDigit (n : Nat) : ∀ c ∈ decimal n, c.isDigit = true := by
  rw [decimal]
  split
  · rename_i h
    intro c hc
    rw [List.mem_singleton.1 hc]
    exact digit_isDigit n h
  · intro c hc
    rcases List.mem_append.1 hc with hc | hc
    · exact decimal_all_isDigit (n / 10) c hc
    · rw [List.mem_singleton.1 hc]
      exact digit_isDigit _ (Nat.mod_lt _ (by decide))
termination_by n

theorem decimal_ne_nil (n : Nat) : decimal n ≠ [] := by
  rw [decimal]
  split <;> simp

end ProfilingAgent.Text

import ProfilingAgent.Pattern.Atom

set_option autoImplicit false

namespace ProfilingAgent.Pattern

structure Nested (α : Type) where
  value : α
  depth : Nat

/-- The depth of several parts in a row, which nest only if there is more than one. -/
def depthOfRow : List Nat → Nat
  | [] => 0
  | [d] => d
  | ds => ds.foldl max 0 + 1

structure Bracket where
  negated : Bool
  /-- Only dashes were read so far, which stand for themselves, as does a closing bracket now. -/
  fresh : Bool
  left : Option (Nested CharClass × (CharClass → CharClass → CharClass))
  /-- The items since, last first. -/
  items : List (Nested CharClass)

namespace Bracket

def operator? : Char → Option (CharClass → CharClass → CharClass)
  | '&' => some .both
  | '-' => some .without
  | '~' => some .oneOf
  | _ => none

def soFar (b : Bracket) : Nested CharClass :=
  let union := match b.items with
    | [] => CharClass.empty
    | first :: others => others.foldl (fun c d => .either d.value c) first.value
  let depth := depthOfRow (b.items.map (·.depth))
  match b.left with
  | none => ⟨union, depth⟩
  | some (left, join) => ⟨join left.value union, max left.depth depth + 1⟩

def add? (m : Mode) (b : Bracket) (item : Nested CharClass) : Option Bracket :=
  if !m.anyCase then some { b with items := item :: b.items }
  else if m.unicode then none
  else some { b with items := ⟨.anyCase item.value, item.depth⟩ :: b.items }

def closed? (m : Mode) (b : Bracket) : Option (Nested CharClass) :=
  let all := b.soFar
  if !b.negated then some ⟨all.value, all.depth + 1⟩
  else if m.unicode then some ⟨.not all.value, all.depth + 1⟩
  else none

def character? (m : Mode) (c : Char) : Option (Nested CharClass) :=
  if !m.unicode && 0x80 ≤ c.toNat then none else some ⟨.only c, 0⟩

def opened (m : Mode) (cs : List Char) : Bracket × List Char :=
  match m.skip cs with
  | '^' :: rest => (⟨true, true, none, []⟩, rest)
  | rest => (⟨false, true, none, []⟩, rest)

def named? (m : Mode) : List Char → Option (Option CharClass × List Char)
  | ':' :: cs =>
    let (negated, cs) := match cs with
      | '^' :: cs => (true, cs)
      | cs => (false, cs)
    match cs.dropWhile (· ≠ ':') with
    | ':' :: ']' :: rest =>
      (CharClass.ofName? (String.ofList (cs.takeWhile (· ≠ ':')))).map fun c =>
        (if !negated then some c else if m.unicode then some (.not c) else none, rest)
    | _ => none
  | _ => none

def atom? (m : Mode) : List Char → Option (Atom × List Char)
  | [] => none
  | '\\' :: rest => Atom.ofEscape? m rest
  | c :: rest => some (.char c, rest)

/-- A character, a range or an escaped class. A dash before a closing bracket or another dash makes
no range. -/
def item? (m : Mode) (cs : List Char) : Option (Nested CharClass × List Char) := do
  let (first, rest) ← atom? m cs
  let alone := match first with
    | .char c => character? m c
    | .among c => some ⟨c, 0⟩
    | .place _ => none
  let rest := m.skip rest
  match rest with
  | '-' :: behind =>
    let behind := m.skip behind
    if behind.head? = some ']' ∨ behind.head? = some '-' then
      let item ← alone
      some (item, rest)
    else
      let (last, behind) ← atom? m behind
      match first, last with
      | .char a, .char b =>
        let _ ← character? m a
        let _ ← character? m b
        if a ≤ b then some (⟨.ranges [(a, b)], 0⟩, behind) else none
      | _, _ => none
  | _ =>
    let item ← alone
    some (item, rest)

/-- The character is the first of a class, dashes apart, and stands for itself there. -/
def isLeading (b : Bracket) (c : Char) : Bool :=
  b.fresh && (c = '-' || (c = ']' && b.items.isEmpty))

def read? (m : Mode) : Nat → List Bracket → Bracket → List Char →
    Option (Nested CharClass × List Char)
  | 0, _, _, _ => none
  | fuel + 1, around, b, cs =>
    match m.skip cs with
    | [] => none
    | c :: rest =>
      if b.isLeading c then do
        let b ← b.add? m ⟨.only c, 0⟩
        read? m fuel around { b with fresh := c = '-' } rest
      else
        let b := { b with fresh := false }
        match (if rest.head? = some c then operator? c else none) with
        | some join =>
          read? m fuel around { b with left := some (b.soFar, join), items := [] } (rest.drop 1)
        | none =>
          if c = '[' then
            match named? m rest with
            | some (item, rest) => do
              let b ← b.add? m ⟨← item, 0⟩
              read? m fuel around b rest
            | none =>
              let (inner, rest) := opened m rest
              read? m fuel (b :: around) inner rest
          else if c = ']' then do
            let item ← b.closed? m
            match around with
            | [] => some (item, rest)
            | outer :: around =>
              let outer ← outer.add? m item
              read? m fuel around outer rest
          else do
            let (item, rest) ← item? m (c :: rest)
            let b ← b.add? m item
            read? m fuel around b rest

def ofText? (m : Mode) (cs : List Char) : Option (Nested CharClass × List Char) :=
  let (b, rest) := opened m cs
  read? m (rest.length + 1) [] b rest

end Bracket
end ProfilingAgent.Pattern

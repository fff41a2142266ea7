import ProfilingAgent.Pattern.Bracket
import ProfilingAgent.Text.Letter

set_option autoImplicit false

namespace ProfilingAgent.Pattern

structure Piece where
  node : Node
  depth : Nat
  /-- A switch of the mode cannot be repeated. -/
  repeatable : Bool

structure Group where
  mode : Mode
  branches : List (Nested Node)
  pieces : List Piece

namespace Group

def start (m : Mode) : Group := ⟨m, [], []⟩

def add (g : Group) (n : Node) (depth : Nat) : Group :=
  { g with pieces := ⟨n, depth, true⟩ :: g.pieces }

def addMode (g : Group) (m : Mode) : Group :=
  { g with mode := m, pieces := ⟨.empty, 0, false⟩ :: g.pieces }

def branch (g : Group) : Nested Node :=
  let node := match g.pieces with
    | [] => .empty
    | last :: others => others.foldl (fun n p => .next p.node n) last.node
  ⟨node, depthOfRow (g.pieces.map (·.depth))⟩

def nextBranch (g : Group) : Group :=
  { g with branches := g.branch :: g.branches, pieces := [] }

def closed (g : Group) : Nested Node :=
  let last := g.branch
  ⟨g.branches.foldl (fun n b => .choice b.value n) last.value,
    depthOfRow (last.depth :: g.branches.map (·.depth))⟩

def repeat? (g : Group) (mark : Char) (greedy : Bool) : Option Group :=
  match g.pieces with
  | [] => none
  | last :: others =>
    let greedy := greedy != g.mode.swapped
    let node := match mark with
      | '?' => last.node.atMostOnce greedy
      | '*' => .many last.node greedy
      | _ => last.node.atLeastOnce greedy
    if !last.repeatable then none
    else some { g with pieces := ⟨node, last.depth + 1, true⟩ :: others }

end Group

def character? (m : Mode) (c : Char) : Option Node :=
  if !m.anyCase then some (.one (.only c))
  else if m.unicode then none
  else some (.one (if c.isAlpha then .anyCase (.only c) else .only c))

def dot? (m : Mode) : Option Node :=
  if !m.unicode then none
  else if m.dotAll then some (.one (.not .empty))
  else if m.returns then some (.one (.not (.ranges [('\n', '\n'), ('\r', '\r')])))
  else some (.one (.not (.only '\n')))

def startMark (m : Mode) : Node :=
  .place (if !m.manyLines then .textStart else if m.returns then .eitherLineStart else .lineStart)

def endMark (m : Mode) : Node :=
  .place (if !m.manyLines then .textEnd else if m.returns then .eitherLineEnd else .lineEnd)

def isGroupName : List Char → Bool
  | [] => false
  | first :: others =>
    (first = '_' || Text.isLetter first) &&
      others.all fun c =>
        c = '_' || c = '.' || c = '[' || c = ']' || Text.isLetter c || Text.isNumber c

inductive Opening
  | switch (m : Mode)
  | group (m : Mode) (name : Option String)

def opening? (m : Mode) (cs : List Char) : Option (Opening × List Char) :=
  let named (cs : List Char) : Option (Opening × List Char) :=
    let name := cs.takeWhile (· ≠ '>')
    if isGroupName name ∧ name.length < cs.length then
      some (.group m (String.ofList name), cs.drop (name.length + 1))
    else none
  match m.skip cs with
  | '?' :: 'P' :: '<' :: rest => named rest
  | '?' :: '<' :: rest => named rest
  | '?' :: rest => do
    let letters := rest.takeWhile fun c => c ≠ ':' ∧ c ≠ ')'
    let inner ← m.switchAll? letters
    match rest.drop letters.length with
    | ':' :: rest => some (.group inner none, rest)
    | ')' :: rest => if letters.isEmpty then none else some (.switch inner, rest)
    | _ => none
  | rest => some (.group m none, rest)

/-- Reads a pattern to its end, with the groups around it and the names that are taken. A repetition
with a count is not supported. -/
def read? : Nat → List Group → Group → List String → List Char → Option (Nested Node)
  | 0, _, _, _, _ => none
  | fuel + 1, around, g, names, cs =>
    match g.mode.skip cs with
    | [] => if around.isEmpty then some g.closed else none
    | '(' :: rest => do
      match ← opening? g.mode rest with
      | (.switch m, rest) => read? fuel around (g.addMode m) names rest
      | (.group m none, rest) => read? fuel (g :: around) (.start m) names rest
      | (.group m (some name), rest) =>
        if name ∈ names then none else read? fuel (g :: around) (.start m) (name :: names) rest
    | ')' :: rest =>
      match around with
      | [] => none
      | outer :: around =>
        let inner := g.closed
        read? fuel around (outer.add inner.value (inner.depth + 1)) names rest
    | '|' :: rest => read? fuel around g.nextBranch names rest
    | '[' :: rest => do
      let (c, rest) ← Bracket.ofText? g.mode rest
      read? fuel around (g.add (.one c.value) c.depth) names rest
    | '{' :: _ => none
    | '.' :: rest => do read? fuel around (g.add (← dot? g.mode) 0) names rest
    | '^' :: rest => read? fuel around (g.add (startMark g.mode) 0) names rest
    | '$' :: rest => read? fuel around (g.add (endMark g.mode) 0) names rest
    | '\\' :: rest => do
      let (atom, rest) ← Atom.ofEscape? g.mode rest
      let node ← match atom with
        | .char c => character? g.mode c
        | .among c => some (.one c)
        | .place p => some (.place p)
      read? fuel around (g.add node 0) names rest
    | c :: rest =>
      if c = '?' ∨ c = '*' ∨ c = '+' then do
        let lazy := rest.head? = some '?'
        let g ← g.repeat? c !lazy
        read? fuel around g names (if lazy then rest.drop 1 else rest)
      else do read? fuel around (g.add (← character? g.mode c) 0) names rest

def depthLimit : Nat := 250

end Pattern

structure Pattern where
  text : String
  node : Pattern.Node
deriving DecidableEq, Repr

namespace Pattern

def ofText? (s : String) : Option Pattern :=
  let cs := s.toList
  match read? (cs.length + 1) [] (.start {}) [] cs with
  | none => none
  | some n => if n.depth ≤ depthLimit then some ⟨s, n.value⟩ else none

def accepts (p : Pattern) (s : String) : Bool := p.node.accepts s

end Pattern
end ProfilingAgent

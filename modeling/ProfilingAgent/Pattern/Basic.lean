import ProfilingAgent.Pattern.CharClass

set_option autoImplicit false

/-!
# Patterns

A pattern describes texts by characters, places between characters, sequences, choices and
repetitions. A choice tries its branches in order, and a repetition goes on as long as it can, or
stops as soon as it can. The pattern is looked for from the beginning of the text on, and found at
the first place where any way leads through it. The text is accepted when the way that is taken
first from there ends exactly where the text ends.
-/
namespace ProfilingAgent.Pattern

inductive Place
  | textStart
  | textEnd
  | lineStart
  | lineEnd
  /-- Lines that end in a carriage return, a line feed or both. -/
  | eitherLineStart
  | eitherLineEnd
  | wordEdge
  | noWordEdge
  | wordStart
  | wordEnd
deriving DecidableEq, Repr

namespace Place

def inWord (c : Option Char) : Bool := c.any CharClass.wordCharacters.contains

def holds (p : Place) (before after : Option Char) : Bool :=
  match p with
  | textStart => before.isNone
  | textEnd => after.isNone
  | lineStart => before.isNone || before == some '\n'
  | lineEnd => after.isNone || after == some '\n'
  | eitherLineStart =>
    before.isNone || before == some '\n' || (before == some '\r' && after != some '\n')
  | eitherLineEnd =>
    after.isNone || after == some '\r' || (after == some '\n' && before != some '\r')
  | wordEdge => inWord before != inWord after
  | noWordEdge => inWord before == inWord after
  | wordStart => !inWord before && inWord after
  | wordEnd => inWord before && !inWord after

end Place

inductive Node
  | empty
  | one (c : CharClass)
  | place (p : Place)
  | next (a b : Node)
  | choice (a b : Node)
  /-- Any number of times, as many as possible or as few as possible. -/
  | many (a : Node) (greedy : Bool)
deriving DecidableEq, Repr

/-- What a way through a node does with the next character: leave it, or take it and have these
nodes left to go through. -/
inductive Way
  | leave
  | take (left : List Node)
deriving DecidableEq, Repr

namespace Way

def followedBy (w : Way) (leaving : List Way) (nodes : List Node) : List Way :=
  match w with
  | leave => leaving
  | take left => [take (left ++ nodes)]

end Way

namespace Node

def atLeastOnce (a : Node) (greedy : Bool) : Node := next a (many a greedy)

def atMostOnce (a : Node) (greedy : Bool) : Node :=
  if greedy then choice a empty else choice empty a

def ways (before after : Option Char) : Node → List Way
  | empty => [.leave]
  | one c => if after.any c.contains then [.take []] else []
  | place p => if p.holds before after then [.leave] else []
  | next a b =>
    let behind := b.ways before after
    ((a.ways before after).flatMap (·.followedBy behind [b])).eraseDups
  | choice a b => (a.ways before after ++ b.ways before after).eraseDups
  | many a greedy =>
    let again := (a.ways before after).flatMap (·.followedBy [.leave] [many a greedy])
    (if greedy then again ++ [.leave] else .leave :: again).eraseDups

def waysThrough (before after : Option Char) : List Node → List Way
  | [] => [.leave]
  | n :: rest =>
    let behind := waysThrough before after rest
    (n.ways before after).flatMap (·.followedBy behind rest)

end Node

structure Search where
  begun : List (List Node)
  /-- The pattern was not found yet, so it may begin at any place from here on. -/
  searching : Bool

namespace Search

def start : Search := ⟨[], true⟩

def ways (n : Node) (before after : Option Char) (s : Search) : List Way :=
  s.begun.flatMap (Node.waysThrough before after) ++ if s.searching then n.ways before after else []

/-- The pattern is found inside a character of several bytes, where nothing can be taken and both
neighbours are outside of words. -/
def foundInside (n : Node) (c : Char) : Bool :=
  decide (1 < c.utf8Size) && (n.ways (some c) (some c)).contains .leave

/-- What is left of the ways after a character. Behind a way that leaves the character nothing is
tried any more. -/
def advance (n : Node) (before : Option Char) (c : Char) (s : Search) : Search :=
  let ways := s.ways n before (some c)
  let taken (w : Way) : Option (List Node) :=
    match w with
    | .leave => none
    | .take left => some left
  ⟨((ways.takeWhile (· ≠ .leave)).filterMap taken).eraseDups,
    s.searching && !ways.contains .leave && !foundInside n c⟩

def reachesEnd (n : Node) (before : Option Char) (s : Search) : List Char → Bool
  | [] => (s.ways n before none).contains .leave
  | c :: cs => reachesEnd n (some c) (s.advance n before c) cs

end Search

def Node.accepts (n : Node) (s : String) : Bool := Search.start.reachesEnd n none s.toList

end ProfilingAgent.Pattern

import ProfilingAgent.Context.Tags

set_option autoImplicit false

/-!
# The tags of a process

Global tags and the tags of contexts, both with repetitions and in order of attachment. Taking a
tag off removes its latest occurrence. A batch is attached as a whole or not at all, and taken off
last tag first, so that it undoes the batch that was attached.
-/
namespace ProfilingAgent

def removeLatest (t : Tag) (tags : List Tag) : List Tag := (tags.reverse.erase t).reverse

/-- Removes a batch, last tag first, and counts the tags that were there. -/
def removeBatch (batch tags : List Tag) : List Tag × Nat :=
  batch.foldr (fun t r => if t ∈ r.1 then (removeLatest t r.1, r.2 + 1) else r) (tags, 0)

structure TagStore where
  globals : List Tag
  contexts : ContextTags

namespace TagStore

def empty : TagStore := ⟨[], .empty⟩

instance : Inhabited TagStore := ⟨empty⟩

def addTags (s : TagStore) (c : ContextId) (tags : List Tag) : Except TagError TagStore :=
  match Tag.checkAll tags with
  | .error e => .error e
  | .ok _ =>
    if tags = [] then .ok s
    else .ok { s with contexts := s.contexts.put c (s.contexts.tagsOf c ++ tags) }

def removeTags (s : TagStore) (c : ContextId) (tags : List Tag) : TagStore × Nat :=
  let (left, removed) := removeBatch tags (s.contexts.tagsOf c)
  ({ s with contexts := s.contexts.put c left }, removed)

def addGlobal (s : TagStore) (t : Tag) : Except TagError TagStore :=
  match t.check with
  | .error e => .error e
  | .ok _ => .ok { s with globals := s.globals ++ [t] }

def removeGlobal (s : TagStore) (t : Tag) : TagStore × Bool :=
  ({ s with globals := removeLatest t s.globals }, t ∈ s.globals)

def replaceGlobals (s : TagStore) (old new : List Tag) : Except TagError TagStore :=
  match Tag.checkAll new with
  | .error e => .error e
  | .ok _ => .ok { s with globals := (removeBatch old s.globals).1 ++ new }

def snapshot (s : TagStore) (c : ContextId) : List Tag := s.globals ++ s.contexts.tagsOf c

def clearContext (s : TagStore) (c : ContextId) : TagStore × Nat :=
  ({ s with contexts := s.contexts.clear c }, (s.contexts.tagsOf c).length)

def contextCount (s : TagStore) : Nat := s.contexts.count

end TagStore
end ProfilingAgent

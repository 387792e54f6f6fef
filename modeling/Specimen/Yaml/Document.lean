import Specimen.Yaml.Event

/-!
# YAML documents

A text is read as one document. Aliases refer to nodes before them by anchors, each anchor standing
for the number of the node that it was given to.
-/

namespace Specimen.Yaml

/-- A part of a document. -/
inductive Part where
  /-- The node of a number. -/
  | reference (number : Nat)
  | scalar (s : Scalar)
  | sequenceStart
  | sequenceEnd
  | mappingStart
  | mappingEnd
  /-- All that a text without documents holds. -/
  | nothing
  deriving DecidableEq, Repr

/-- The first document of a text. -/
structure Document where
  /-- The parts, as far as the text has no fault. -/
  parts : List Part
  /-- The positions of the nodes that have numbers, the last first. -/
  targets : List (Nat × Nat)
  /-- Whether the text holds this document without fault and nothing else. -/
  isWhole : Bool

namespace Document

/-- The parts from the node of a number on. -/
def partsAt (d : Document) (number : Nat) : List Part :=
  match d.targets.lookup number with
  | some position => d.parts.drop position
  | none => []

/-- What is known while a document is put together. -/
structure Draft where
  /-- The parts, in reverse. -/
  parts : List Part
  /-- The numbers of the anchors. -/
  anchors : List (List Char × Nat)
  targets : List (Nat × Nat)

namespace Draft

def empty : Draft :=
  ⟨[], [], []⟩

/-- With one more part, a node with an anchor or none. The number of an anchor is how many names of
anchors there are before it is added. -/
def add (draft : Draft) (part : Part) (anchor : Option (List Char)) : Draft :=
  let position := draft.parts.length
  let draft := { draft with parts := part :: draft.parts }
  match anchor with
  | none => draft
  | some name =>
    let number := draft.anchors.length
    { draft with
      anchors := (name, number) :: draft.anchors.filter (·.1 != name)
      targets := (number, position) :: draft.targets }

/-- With the part of an event; none for an alias without anchor. -/
def addEvent (draft : Draft) : Event → Option Draft
  | .alias name => (draft.anchors.lookup name).map fun number => draft.add (.reference number) none
  | .scalar anchor s => some (draft.add (.scalar s) anchor)
  | .sequenceStart anchor => some (draft.add .sequenceStart anchor)
  | .sequenceEnd => some (draft.add .sequenceEnd none)
  | .mappingStart anchor => some (draft.add .mappingStart anchor)
  | .mappingEnd => some (draft.add .mappingEnd none)

/-- With the parts of events up to the first alias without anchor, and whether there is none. -/
def addEvents (draft : Draft) : List Event → Draft × Bool
  | [] => (draft, true)
  | e :: es =>
    match draft.addEvent e with
    | none => (draft, false)
    | some draft => draft.addEvents es

end Draft

def ofEvents (events : List Event) (isWhole : Bool) : Document :=
  let (draft, isKnown) := Draft.empty.addEvents events
  ⟨draft.parts.reverse, draft.targets, isWhole && isKnown⟩

/-- A document that is faulty from its beginning. -/
def faulty : Document :=
  ⟨[], [], false⟩

/-- The document of a text that holds none. -/
def none : Document :=
  ⟨[.nothing], [], true⟩

/-! ## The marks of documents -/

/-- What the directives before a document say. -/
structure Directives where
  hasVersion : Bool
  handles : Handles

/-- The directives at the head of tokens and the tokens after them; none for a fault. -/
def readDirectives (ds : Directives) : List Token → Option (Directives × List Token)
  | .versionDirective major minor :: ts =>
    if ds.hasVersion || major != 1 || (minor != 1 && minor != 2) then Option.none
    else readDirectives { ds with hasVersion := true } ts
  | .tagDirective handle meaning :: ts =>
    if ds.handles.any (·.1 == handle) then Option.none
    else readDirectives { ds with handles := ds.handles ++ [(handle, meaning)] } ts
  | ts => some (ds, ts)

/-- Whether the tokens after a document end the text. -/
def endsText : List Token → Bool
  | .documentEnd :: ts => endsText ts
  | .streamEnd :: _ => true
  | _ => false

/-- The document of tokens whose beginning and directives are read. -/
def ofTokensFrom (handles : Handles) (isExplicit : Bool) (ts : List Token) : Document :=
  let isEmpty := isExplicit && match ts with
    | .versionDirective .. :: _ | .tagDirective .. :: _ => true
    | .documentStart :: _ | .documentEnd :: _ | .streamEnd :: _ => true
    | _ => false
  let (events, rest) :=
    if isEmpty then ([.empty], some ts)
    else eventsOnto handles (4 * ts.length + 8) [] [.node true false] ts
  ofEvents events.reverse (rest.any endsText)

def ofTokens : List Token → Document
  | [] => faulty
  | .streamEnd :: _ => none
  | ts =>
    match readDirectives ⟨false, []⟩ ts with
    | Option.none => faulty
    | some (ds, .documentStart :: rest) => ofTokensFrom (ds.handles ++ standardHandles) true rest
    | some (ds, rest) =>
      if rest.length = ts.length then ofTokensFrom (ds.handles ++ standardHandles) false rest
      else faulty

def ofText (text : String) : Document :=
  match (tokens text).1 with
  | .streamStart :: ts => ofTokens ts
  | _ => faulty

end Document

end Specimen.Yaml

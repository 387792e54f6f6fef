import Specimen.Yaml.Lexer

/-!
# From YAML tokens to events

The nodes of a document come as events in the order of the text: scalars and aliases, and the starts
and ends of collections. Which tokens may come next is kept as a stack of expectations. The events
before a fault are kept, as the tokens are.
-/

namespace Specimen.Yaml

/-- The text of a scalar node, how it is written and its tag. -/
structure Scalar where
  text : List Char
  style : ScalarStyle
  tag : Option (List Char)
  deriving DecidableEq, Repr

/-- An empty plain scalar, where a node is left out. -/
def Scalar.empty : Scalar :=
  ⟨[], .plain, none⟩

/-- An event of a document. Nodes may have an anchor. -/
inductive Event where
  | alias (name : List Char)
  | scalar (anchor : Option (List Char)) (s : Scalar)
  | sequenceStart (anchor : Option (List Char))
  | sequenceEnd
  | mappingStart (anchor : Option (List Char))
  | mappingEnd
  deriving DecidableEq, Repr

def Event.empty : Event :=
  .scalar none .empty

/-- What is expected at a place of a document. -/
inductive Expectation where
  /-- A node; in a block a mapping may begin, and as a value of a block mapping a sequence that is
  not indented. -/
  | node (inBlock mayBeUnindented : Bool)
  | blockItem
  | unindentedItem
  | blockKey
  | blockValue
  | flowItem (isFirst : Bool)
  | flowKey (isFirst : Bool)
  | flowValue
  /-- A value that is left out after a key without question mark. -/
  | noFlowValue
  /-- The key of a single pair in a flow sequence. -/
  | pairKey
  | pairValue
  | pairEnd
  deriving DecidableEq, Repr

/-- What tag handles stand for. -/
abbrev Handles := List (List Char × List Char)

/-- The handles that every document has. -/
def standardHandles : Handles :=
  [(['!'], ['!']), (['!', '!'], "tag:yaml.org,2002:".toList)]

/-- The tag of a handle and suffix; none for an unknown handle. -/
def resolveTag (handles : Handles) (handle suffix : List Char) : Option (List Char) :=
  if handle = [] then some suffix else (handles.lookup handle).map (· ++ suffix)

/-- A step: the events, what is expected next before all else, and the tokens left; none for a
fault. -/
abbrev Step := Option (List Event × List Expectation × List Token)

/-- The anchor and tag before a node, in either order. -/
def readProperties : List Token → Option (List Char) × Option (List Char × List Char) × List Token
  | .anchor a :: .tag h s :: ts => (some a, some (h, s), ts)
  | .tag h s :: .anchor a :: ts => (some a, some (h, s), ts)
  | .anchor a :: ts => (some a, none, ts)
  | .tag h s :: ts => (none, some (h, s), ts)
  | ts => (none, none, ts)

/-- The tag of a scalar. A plain scalar without tag and one with the tag `!` have none. -/
def scalarTag (tag : Option (List Char)) : Option (List Char) :=
  if tag = some ['!'] then none else tag

/-- The content of a node after its properties. -/
def stepContent (inBlock mayBeUnindented : Bool) (anchor tag : Option (List Char)) :
    List Token → Step
  | [] => none
  | t :: ts =>
    match t with
    | .blockEntry =>
      if mayBeUnindented then some ([.sequenceStart anchor], [.unindentedItem], t :: ts)
      else orEmpty (t :: ts)
    | .scalar text style =>
      some ([.scalar anchor ⟨text, style, scalarTag tag⟩], [], ts)
    | .flowSequenceStart => some ([.sequenceStart anchor], [.flowItem true], ts)
    | .flowMappingStart => some ([.mappingStart anchor], [.flowKey true], ts)
    | .blockSequenceStart =>
      if inBlock then some ([.sequenceStart anchor], [.blockItem], ts) else orEmpty (t :: ts)
    | .blockMappingStart =>
      if inBlock then some ([.mappingStart anchor], [.blockKey], ts) else orEmpty (t :: ts)
    | _ => orEmpty (t :: ts)
where
  /-- A node of which only the properties are written. -/
  orEmpty (ts : List Token) : Step :=
    if anchor.isSome || tag.isSome then some ([.scalar anchor ⟨[], .plain, tag⟩], [], ts) else none

/-- A node. -/
def stepNode (handles : Handles) (inBlock mayBeUnindented : Bool) : List Token → Step
  | .alias name :: ts => some ([.alias name], [], ts)
  | ts =>
    match readProperties ts with
    | (_, _, []) => none
    | (anchor, none, ts) => stepContent inBlock mayBeUnindented anchor none ts
    | (anchor, some (handle, suffix), ts) =>
      match resolveTag handles handle suffix with
      | none => none
      | some tag => stepContent inBlock mayBeUnindented anchor (some tag) ts

/-- A node, unless a token with a property shows that it is left out. -/
def stepOptional (handles : Handles) (inBlock mayBeUnindented : Bool) (isAbsent : Token → Bool)
    (next : Expectation) : List Token → Step
  | [] => none
  | t :: ts =>
    if isAbsent t then some ([.empty], [next], t :: ts)
    else
      (stepNode handles inBlock mayBeUnindented (t :: ts)).map fun (events, inner, ts) =>
        (events, inner ++ [next], ts)

/-- Whether a key or value of a block mapping is left out before a token. -/
def endsBlockPart (t : Token) : Bool :=
  t == .key || t == .value || t == .blockEnd

/-- Whether a token ends an item of a flow sequence. -/
def endsFlowItem (t : Token) : Bool :=
  t == .flowEntry || t == .flowSequenceEnd

/-- Whether a token ends a pair of a flow mapping. -/
def endsFlowPair (t : Token) : Bool :=
  t == .flowEntry || t == .flowMappingEnd

/-- The tokens at an item of a flow collection: those after the comma, which may be missing before
the first item. -/
def atFlowItem (isFirst : Bool) (ts : List Token) : Option (List Token) :=
  if isFirst then some ts
  else
    match ts with
    | .flowEntry :: ts => some ts
    | _ => none

/-- What an expectation makes of the tokens. -/
def Expectation.step (handles : Handles) (e : Expectation) : List Token → Step
  | [] => none
  | t :: ts =>
    match e, t with
    | node inBlock mayBeUnindented, _ => stepNode handles inBlock mayBeUnindented (t :: ts)
    | blockItem, .blockEntry =>
      stepOptional handles true false (fun t => t == .blockEntry || t == .blockEnd) blockItem ts
    | blockItem, .blockEnd => some ([.sequenceEnd], [], ts)
    | blockItem, _ => none
    | unindentedItem, .blockEntry =>
      stepOptional handles true false (fun t => t == .blockEntry || endsBlockPart t)
        unindentedItem ts
    | unindentedItem, _ => some ([.sequenceEnd], [], t :: ts)
    | blockKey, .key => stepOptional handles true true endsBlockPart blockValue ts
    | blockKey, .blockEnd => some ([.mappingEnd], [], ts)
    | blockKey, _ => none
    | blockValue, .value => stepOptional handles true true endsBlockPart blockKey ts
    | blockValue, _ => some ([.empty], [blockKey], t :: ts)
    | flowItem _, .flowSequenceEnd => some ([.sequenceEnd], [], ts)
    | flowItem isFirst, _ =>
      match atFlowItem isFirst (t :: ts) with
      | some (.key :: ts) => some ([.mappingStart none], [pairKey, flowItem false], ts)
      | some (.flowSequenceEnd :: ts) => some ([.sequenceEnd], [], ts)
      | some ts => some ([], [node false false, flowItem false], ts)
      | none => none
    | flowKey _, .flowMappingEnd => some ([.mappingEnd], [], ts)
    | flowKey isFirst, _ =>
      match atFlowItem isFirst (t :: ts) with
      | some (.key :: ts) =>
        stepOptional handles false false (fun t => t == .value || endsFlowPair t) flowValue ts
      | some (.flowMappingEnd :: ts) => some ([.mappingEnd], [], ts)
      | some ts => some ([], [node false false, noFlowValue], ts)
      | none => none
    | flowValue, .value => stepOptional handles false false endsFlowPair (flowKey false) ts
    | flowValue, _ => some ([.empty], [flowKey false], t :: ts)
    | noFlowValue, _ => some ([.empty], [flowKey false], t :: ts)
    | pairKey, _ =>
      if t == .value || endsFlowItem t then some ([.empty], [pairValue], ts)
      else some ([], [node false false, pairValue], t :: ts)
    | pairValue, .value => stepOptional handles false false endsFlowItem pairEnd ts
    | pairValue, _ => some ([.empty], [pairEnd], t :: ts)
    | pairEnd, _ => some ([.mappingEnd], [], t :: ts)

/-- The events of what is expected, put before `events` in reverse, and the tokens after it; no
tokens for a fault. -/
def eventsOnto (handles : Handles) :
    Nat → List Event → List Expectation → List Token → List Event × Option (List Token)
  | 0, events, _, _ => (events, none)
  | _ + 1, events, [], ts => (events, some ts)
  | steps + 1, events, e :: expected, ts =>
    match e.step handles ts with
    | none => (events, none)
    | some (new, inner, ts) =>
      eventsOnto handles steps (new.reverse ++ events) (inner ++ expected) ts

end Specimen.Yaml

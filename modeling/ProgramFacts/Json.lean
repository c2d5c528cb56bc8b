import ProgramFacts.Json.Token

/-!
# JSON texts

A text is read token by token: what has been begun stands on a stack, and a mode says what may come next.
The relaxed dialect takes one comma before a closing bracket.
-/

namespace ProgramFacts.Json

/-- A list or a mapping that has been begun. -/
inductive Frame
  /-- The items so far, last first. -/
  | list (items : List Document)
  /-- The entries so far and the key whose value is being read. -/
  | mapping (entries : Entries) (key : String)

/-- What may come next. -/
inductive Mode
  | value
  /-- The first item of a list, or its end. -/
  | firstItem
  /-- An item after a comma. -/
  | item
  /-- The first key of a mapping, or its end. -/
  | firstKey
  /-- A key after a comma. -/
  | key (entries : Entries)
  | colon (entries : Entries) (key : String)
  /-- What follows a value. -/
  | follow (d : Document)
  /-- Only the bracket that closes a list. -/
  | closeList
  /-- Only the bracket that closes a mapping. -/
  | closeMapping

/-- The reader after a token. -/
inductive Next
  | done (d : Document)
  | go (stack : List Frame) (mode : Mode)

/-- A value's first token. -/
def stepValue (t : Placed) (stack : List Frame) : Except Fault Next :=
  match t.token with
  | .openMapping => .ok (.go stack .firstKey)
  | .openList => .ok (.go stack .firstItem)
  | .text s => .ok (.go stack (.follow (.text s)))
  | .scalar s => .ok (.go stack (.follow (.scalar s)))
  | .oversized digits => .error ⟨.oversized digits, t.position⟩
  | .badText f => .error f
  | _ => .error ⟨.value, t.position⟩

/-- A key. -/
def stepKey (t : Placed) (stack : List Frame) (entries : Entries) : Except Fault Next :=
  match t.token with
  | .text s => .ok (.go stack (.colon entries s))
  | .badText f => .error f
  | _ => .error ⟨.propertyName, t.position⟩

def step (dialect : Dialect) (t : Placed) (stack : List Frame) : Mode → Except Fault Next
  | .value => stepValue t stack
  | .firstItem =>
    match t.token, dialect with
    | .closeList, _ => .ok (.go stack (.follow (.list [])))
    | .comma, .relaxed => .ok (.go stack .closeList)
    | _, _ => stepValue t (.list [] :: stack)
  | .item =>
    match t.token, dialect, stack with
    | .closeList, .relaxed, .list items :: below => .ok (.go below (.follow (.list items.reverse)))
    | _, _, _ => stepValue t stack
  | .firstKey =>
    match t.token, dialect with
    | .closeMapping, _ => .ok (.go stack (.follow (.mapping [])))
    | .comma, .relaxed => .ok (.go stack .closeMapping)
    | _, _ => stepKey t stack []
  | .key entries =>
    match t.token, dialect with
    | .closeMapping, .relaxed => .ok (.go stack (.follow (.mapping entries)))
    | _, _ => stepKey t stack entries
  | .colon entries key =>
    match t.token with
    | .colon => .ok (.go (.mapping entries key :: stack) .value)
    | _ => .error ⟨.colon, t.position⟩
  | .follow d =>
    match stack, t.token with
    | [], .finish => .ok (.done d)
    | [], _ => .error ⟨.extra, t.position⟩
    | .list items :: below, .comma => .ok (.go (.list (d :: items) :: below) .item)
    | .list items :: below, .closeList => .ok (.go below (.follow (.list (d :: items).reverse)))
    | .mapping entries key :: below, .comma => .ok (.go below (.key (Entries.set (.text key) d entries)))
    | .mapping entries key :: below, .closeMapping =>
      .ok (.go below (.follow (.mapping (Entries.set (.text key) d entries))))
    | _, _ => .error ⟨.comma, t.position⟩
  | .closeList =>
    match t.token with
    | .closeList => .ok (.go stack (.follow (.list [])))
    | _ => .error ⟨.value, t.position⟩
  | .closeMapping =>
    match t.token with
    | .closeMapping => .ok (.go stack (.follow (.mapping [])))
    | _ => .error ⟨.propertyName, t.position⟩

/-- Reads tokens until a document is done. -/
def run (dialect : Dialect) (stack : List Frame) (mode : Mode) : List Placed → Except Fault Document
  | [] => .error ⟨.value, 0⟩
  | t :: ts =>
    match step dialect t stack mode with
    | .error f => .error f
    | .ok (.done d) => .ok d
    | .ok (.go stack mode) => run dialect stack mode ts

/-- The document of a text. -/
def parse (dialect : Dialect) (text : List Char) : Except Fault Document :=
  if text.head? = some (Char.ofNat 0xFEFF) then .error ⟨.byteOrderMark, 0⟩
  else run dialect [] .value (tokensFrom dialect 0 text)

end ProgramFacts.Json

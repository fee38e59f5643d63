import SpirvTables.Fault
import SpirvTables.Text.Basic
import SpirvTables.Text.Search

namespace SpirvTables

/-- The text between the first `start` and the next `stop`, and what follows `stop`. Without a
`start` there is no such part and all of the text follows; a `start` that no `stop` closes is a
fault. -/
def delimited (start stop t : Text) : Except Fault (Option Text × Text) :=
  match Text.cut? start t with
  | none => return (none, t)
  | some (_, rest) =>
    match Text.cut? stop rest with
    | none => throw (.unclosed start stop)
    | some (inner, after) => return (some inner, after)

def identifiersAfter (lead t : Text) : List (Text × Text) :=
  (Text.restsAfter lead (t.length + 1) t).filterMap fun rest =>
    match Text.leadingWord rest with
    | [] => none
    | word => some (word, rest)

def definitionLead : Text := "def SPV_"

def stem? (ending word : Text) : Option Text :=
  match Text.upTo? ending word with
  | some [] => none
  | stem => stem

def definedKinds (body : Text) : List Text :=
  (identifiersAfter definitionLead body).filterMap fun (word, _) => stem? "Attr" word

def definedOpcodes (body : Text) : List Text :=
  (identifiersAfter (definitionLead ++ "OC_") body).map (·.1)

structure MarkedSection where
  marker : Text
  before : Text
  body : Text
  after : Text
  deriving DecidableEq

namespace MarkedSection

def enumMarker : Text := "enum section. Generated from SPIR-V spec; DO NOT MODIFY!"

def opcodeMarker : Text := "opcode section. Generated from SPIR-V spec; DO NOT MODIFY!"

def ofText (marker t : Text) : Except Fault MarkedSection :=
  match Text.splitOn marker t with
  | [before, body, after] => return { marker, before, body, after }
  | pieces =>
    let found := pieces.length - 1
    if found < 2 then throw (.markerMissing marker found) else throw (.markerAmbiguous marker found)

def render (s : MarkedSection) (content : Text) : Text :=
  s.before ++ s.marker ++ "\n\n" ++ content ++ "\n\n// End " ++ s.marker ++ s.after

end MarkedSection

structure BlockSection where
  header : Text
  blocks : List Text
  footer : Text
  deriving DecidableEq

namespace BlockSection

def separator : Text := "\n// -----\n\n"

def ofText (separator t : Text) : Except Fault BlockSection :=
  match Text.splitOn separator t with
  | header :: block :: rest =>
    return {
      header
      blocks := (block :: rest).dropLast
      footer := (block :: rest).getLastD [] }
  | _ => throw (.markerMissing separator 0)

def render (s : BlockSection) (blocks : List Text) : Text :=
  Text.join separator (s.header :: blocks ++ [s.footer])

end BlockSection

end SpirvTables

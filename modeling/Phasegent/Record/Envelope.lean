import Phasegent.Record.Spec
import Phasegent.Text.Slice

namespace Phasegent.Record

def headerPrefix : String := "<!-- phasegent-record "

def headerVersion : UInt32 := 1

def headerSuffix : String := " -->"

structure RecordHeader where
  v : UInt32
  kind : RecordKind
  actor : String
  key : String
  phase : Option String
  attempt : Option UInt32
  review : Option String
  recon : Option String
  deriving DecidableEq, Repr

-- The JSON library: both directions of the derived header serialisation.
structure HeaderJson where
  toString : RecordHeader → Except String String
  fromStr : String → Except String RecordHeader

structure DecodedRecord where
  spec : RecordSpec
  body : String
  deriving DecidableEq, Repr

def hasReservedPrefix (body : String) : Bool :=
  headerPrefix.toList.isPrefixOf body.toList

def RecordSpec.header (spec : RecordSpec) : RecordHeader where
  v := headerVersion
  kind := spec.kind
  actor := spec.actor.asStr
  key := spec.key
  phase := spec.phase
  attempt := spec.attempt
  review := spec.review
  recon := spec.recon

def RecordSpec.encodeBody (json : HeaderJson) (spec : RecordSpec) (body : String) :
    Except String String := do
  spec.validateFields
  if hasReservedPrefix body then
    throw "record body must not begin with the reserved record header"
  let text ← (json.toString spec.header).mapError fun error =>
    "record header could not be serialized: " ++ error
  return headerPrefix ++ text ++ headerSuffix ++ "\n" ++ body

def RecordHeader.spec (header : RecordHeader) : Except String RecordSpec := do
  let actor ← (Role.fromStr header.actor).mapError fun error =>
    "record header actor is invalid: " ++ error
  let spec : RecordSpec :=
    { kind := header.kind, actor := actor, key := header.key, phase := header.phase,
      attempt := header.attempt, review := header.review, recon := header.recon }
  -- Field rules only: who may publish a kind is decided when the record is created.
  spec.validateFields.mapError fun error => "record header is inconsistent: " ++ error
  return spec

def decodeBody (json : HeaderJson) (stored : String) : Except String (Option DecodedRecord) := do
  match Text.stripPrefix headerPrefix.toList stored.toList with
  | none => return none
  | some payload =>
      match Text.splitOnce "-->".toList payload with
      | none => throw "record header is not terminated"
      | some (text, rest) =>
          let header ← (json.fromStr (String.ofList (Text.trimEndMatches (· == ' ') text))).mapError
            fun error => "record header is malformed: " ++ error
          if header.v ≠ headerVersion then
            throw ("unsupported record header version " ++ header.v.toNat.repr ++ "; expected 1")
          let spec ← header.spec
          return some ⟨spec, String.ofList ((Text.stripPrefix ['\n'] rest).getD rest)⟩

end Phasegent.Record

import OpenAdb.Lib.Encoding

namespace OpenAdb.P2p.Wire

open OpenAdb.Lib.PyText OpenAdb.Lib.Encoding

/-- The two primitives, as functions of the bytes they are given. -/
structure Crypto where
  hmac : Bytes → Bytes → Bytes
  sha256 : Bytes → Bytes
  hmac_length : ∀ key data, (hmac key data).length = 32
  sha256_length : ∀ data, (sha256 data).length = 32

/-- `OADBP2P2` -/
def magic : Bytes := [0x4f, 0x41, 0x44, 0x42, 0x50, 0x32, 0x50, 0x32]

def requestContext : Bytes := utf8 "OpenADB-P2P-request-v2\x00".toList
def entryContext : Bytes := utf8 "OpenADB-P2P-entry-v2\x00".toList
def responseContext : Bytes := utf8 "OpenADB-P2P-response-v2\x00".toList

/-- What follows the control frame of a file. -/
structure Payload where
  content : Bytes
  digest : Bytes
  authenticator : Bytes
  deriving DecidableEq

/-- One entry of a request; a directory has no payload. -/
structure Record where
  pathBytes : Bytes
  controlTag : Bytes
  payload : Option Payload
  deriving DecidableEq

variable (c : Crypto) (key : Bytes)

def Record.kind (r : Record) : Nat := if r.payload.isSome then 1 else 0

def Record.sizeFrame (r : Record) : Bytes :=
  match r.payload with
  | none => []
  | some p => bigEndian 8 p.content.length

def Record.controlFrame (r : Record) : Bytes :=
  bigEndian 1 r.kind ++ (bigEndian 4 r.pathBytes.length ++ r.pathBytes) ++ r.sizeFrame

/-- The bytes of an entry on the connection. -/
def Record.wire (r : Record) : Bytes :=
  r.controlFrame ++ r.controlTag ++
    match r.payload with
    | none => []
    | some p => p.content ++ p.digest ++ p.authenticator

/-- The part of an entry that enters the transcript of the request. -/
def Record.authenticated (r : Record) : Bytes :=
  r.controlFrame ++ r.controlTag ++
    match r.payload with
    | none => []
    | some p => p.digest ++ p.authenticator

/-- The bytes that the control tag of entry `index` covers. -/
def controlText (index kind : Nat) (path : Text) (sizeFrame : Bytes) : Bytes :=
  entryContext ++ bigEndian 4 index ++
    (bigEndian 1 kind ++ (bigEndian 4 (utf8 path).length ++ utf8 path) ++ sizeFrame)

/-- The three checks on an entry: control tag, digest, authenticator. -/
structure Record.Verified (r : Record) (index : Nat) (path : Text) : Prop where
  control : c.hmac key (controlText index r.kind path r.sizeFrame) = r.controlTag
  digest : ∀ p, r.payload = some p → c.sha256 p.content = p.digest
  authenticator : ∀ p, r.payload = some p →
    c.hmac key (utf8 path ++ [0] ++ bigEndian 8 p.content.length ++ p.content) = p.authenticator

def requestTag (authenticated : Bytes) : Bytes := c.hmac key (requestContext ++ authenticated)

/-- The bytes of a response without its tag. -/
def responsePayload (status entries files bytes : Nat) (message : Text) : Bytes :=
  magic ++ bigEndian 1 status ++ (bigEndian 4 entries ++ bigEndian 4 files ++ bigEndian 8 bytes) ++
    bigEndian 4 (utf8 message).length ++ utf8 message

def responseTag (tag payload : Bytes) : Bytes := c.hmac key (responseContext ++ tag ++ payload)

end OpenAdb.P2p.Wire

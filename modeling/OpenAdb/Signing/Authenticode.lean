import OpenAdb.Lib.ByteFields

namespace OpenAdb.Signing.Authenticode

open OpenAdb.Lib.ByteFields

/-- What is wrong with a signed file, as the messages say. -/
inductive AuthenticodePayloadError
  | truncatedHeader
  | notDosPe
  | invalidPeOffset
  | missingPeSignature
  | truncatedOptionalHeader
  | unsupportedMagic (magic : Nat)
  | noCertificateDirectory
  | directoryOutsideHeader
  | prefixExceedsInput
  | fieldOutsidePrefix
  | notDerSequence
  | derLengthInvalid
  | derLengthNotCanonical
  | derTruncated
  | emptyInput
  | layoutChanged
  | alreadySigned
  | tableNotFollowing
  | tableNotAligned
  | dataAfterTable
  | bytesBeforeTable
  | bytesChanged
  | certificateHeaderInvalid
  | bytesOutsideDer
  | paddingNotZero
  deriving DecidableEq

structure PeSecurityLayout where
  checksumOffset : Nat
  securityDirectoryOffset : Nat
  certificateOffset : Nat
  certificateSize : Nat
  deriving DecidableEq

abbrev Checked := Except AuthenticodePayloadError

/-- `if not c: raise` -/
def check (c : Prop) [Decidable c] (e : AuthenticodePayloadError) : Checked Unit := if c then .ok () else .error e

def unpack (width : Nat) (data : Bytes) (offset : Nat) : Checked Nat := do
  check (offset + width ≤ data.length) .truncatedHeader
  pure (littleEndian ((data.drop offset).take width))

/-- `_u16` -/
def u16 (data : Bytes) (offset : Nat) : Checked Nat := unpack 2 data offset

/-- `_u32` -/
def u32 (data : Bytes) (offset : Nat) : Checked Nat := unpack 4 data offset

def MZ : Bytes := [0x4D, 0x5A]

def PE : Bytes := [0x50, 0x45, 0, 0]

/-- Where the optional header of a kind has the number of directories, and the directories. -/
def directoryOffsets (magic : Nat) : Checked (Nat × Nat) :=
  if magic = 0x10B then .ok (92, 96)
  else if magic = 0x20B then .ok (108, 112)
  else .error (.unsupportedMagic magic)

/-- `_parse_layout` -/
def parseLayout (data : Bytes) : Checked PeSecurityLayout := do
  check (0x40 ≤ data.length ∧ data.take 2 = MZ) .notDosPe
  let peOffset ← u32 data 0x3C
  check (0x40 ≤ peOffset ∧ peOffset + 24 ≤ data.length) .invalidPeOffset
  check ((data.drop peOffset).take 4 = PE) .missingPeSignature
  let coffOffset := peOffset + 4
  let optionalSize ← u16 data (coffOffset + 16)
  let optionalOffset := coffOffset + 20
  let optionalEnd := optionalOffset + optionalSize
  check (optionalEnd ≤ data.length) .truncatedOptionalHeader
  let magic ← u16 data optionalOffset
  let offsets ← directoryOffsets magic
  let count ← u32 data (optionalOffset + offsets.1)
  check (4 < count) .noCertificateDirectory
  let securityDirectoryOffset := optionalOffset + offsets.2 + 4 * 8
  check (securityDirectoryOffset + 8 ≤ optionalEnd) .directoryOutsideHeader
  let certificateOffset ← u32 data securityDirectoryOffset
  let certificateSize ← u32 data (securityDirectoryOffset + 4)
  pure ⟨optionalOffset + 64, securityDirectoryOffset, certificateOffset, certificateSize⟩

/-- `_normalized_prefix` -/
def normalizedPrefix (data : Bytes) (layout : PeSecurityLayout) (length : Nat) : Checked Bytes := do
  check (length ≤ data.length) .prefixExceedsInput
  check (layout.checksumOffset + 4 ≤ length) .fieldOutsidePrefix
  check (layout.securityDirectoryOffset + 8 ≤ length) .fieldOutsidePrefix
  pure (blank layout.securityDirectoryOffset 8 (blank layout.checksumOffset 4 (data.take length)))

/-- The sizes of the header and of the content of a DER object whose length takes several octets. -/
def longLength (lengthOctets : Nat) (rest : Bytes) : Checked (Nat × Nat) := do
  check (lengthOctets ≠ 0 ∧ lengthOctets ≤ 4 ∧ lengthOctets ≤ rest.length) .derLengthInvalid
  let encoded := rest.take lengthOctets
  check (encoded.head? ≠ some 0) .derLengthNotCanonical
  check (0x80 ≤ bigEndian encoded) .derLengthNotCanonical
  pure (2 + lengthOctets, bigEndian encoded)

def derSizes (first : UInt8) (rest : Bytes) : Checked (Nat × Nat) :=
  if first.toNat < 0x80 then .ok (2, first.toNat) else longLength (first.toNat - 0x80) rest

/-- `_der_object_length` -/
def derObjectLength (data : Bytes) : Checked Nat :=
  match data with
  | tag :: first :: rest => do
    check (tag = 0x30) .notDerSequence
    let sizes ← derSizes first rest
    check (sizes.1 + sizes.2 ≤ data.length) .derTruncated
    pure (sizes.1 + sizes.2)
  | _ => .error .notDerSequence

/-- The checks on the certificate table from `certificateOffset` to `certificateEnd`. -/
def checkCertificate (signed : Bytes) (certificateOffset certificateEnd : Nat) : Checked Unit := do
  let length ← u32 signed certificateOffset
  let revision ← u16 signed (certificateOffset + 4)
  let type ← u16 signed (certificateOffset + 6)
  let winCertificateEnd := certificateOffset + length
  check (8 < length ∧ align winCertificateEnd = certificateEnd ∧ revision = 0x0200 ∧ type = 0x0002)
    .certificateHeaderInvalid
  let payloadOffset := certificateOffset + 8
  let derSize ← derObjectLength ((signed.take winCertificateEnd).drop payloadOffset)
  let derEnd := payloadOffset + derSize
  check (align derEnd = certificateEnd ∧ derEnd ≤ winCertificateEnd) .bytesOutsideDer
  check (Zeros ((signed.take certificateEnd).drop derEnd)) .paddingNotZero

structure Report where
  unsignedSha256 : Bytes
  signedSha256 : Bytes
  unsignedSize : Nat
  signedSize : Nat
  certificateOffset : Nat
  certificateSize : Nat

/-- `verify_authenticode_payload`, of what the two files hold -/
def verifyAuthenticodePayload (sha256 : Bytes → Bytes) (unsigned signed : Bytes) : Checked Report := do
  check (unsigned ≠ [] ∧ signed ≠ []) .emptyInput
  let unsignedLayout ← parseLayout unsigned
  let signedLayout ← parseLayout signed
  check (unsignedLayout.checksumOffset = signedLayout.checksumOffset ∧
    unsignedLayout.securityDirectoryOffset = signedLayout.securityDirectoryOffset) .layoutChanged
  check (unsignedLayout.certificateOffset = 0 ∧ unsignedLayout.certificateSize = 0) .alreadySigned
  let certificateOffset := signedLayout.certificateOffset
  let certificateSize := signedLayout.certificateSize
  let certificateEnd := certificateOffset + certificateSize
  check (certificateOffset = align unsigned.length) .tableNotFollowing
  check (certificateOffset % 8 = 0 ∧ 8 ≤ certificateSize ∧ certificateSize % 8 = 0) .tableNotAligned
  check (certificateEnd = signed.length) .dataAfterTable
  check (Zeros ((signed.take certificateOffset).drop unsigned.length)) .bytesBeforeTable
  let unsignedPrefix ← normalizedPrefix unsigned unsignedLayout unsigned.length
  let signedPrefix ← normalizedPrefix signed signedLayout unsigned.length
  check (unsignedPrefix = signedPrefix) .bytesChanged
  checkCertificate signed certificateOffset certificateEnd
  pure ⟨sha256 unsigned, sha256 signed, unsigned.length, signed.length, certificateOffset, certificateSize⟩

/-! What a signature may change. -/

/-- A PE image, with the positions of its checksum and of its security directory. -/
def PeImage (data : Bytes) (checksum directory : Nat) : Prop :=
  0x40 ≤ data.length ∧ data.take 2 = MZ ∧ ∃ peOffset optionalSize count,
    HasField data 0x3C 4 peOffset ∧ 0x40 ≤ peOffset ∧ (data.drop peOffset).take 4 = PE ∧
      HasField data (peOffset + 20) 2 optionalSize ∧ peOffset + 24 + optionalSize ≤ data.length ∧
      checksum = peOffset + 24 + 64 ∧ directory + 8 ≤ peOffset + 24 + optionalSize ∧ 4 < count ∧
      (HasField data (peOffset + 24) 2 0x10B ∧ HasField data (peOffset + 24 + 92) 4 count ∧
          directory = peOffset + 24 + 96 + 4 * 8 ∨
        HasField data (peOffset + 24) 2 0x20B ∧ HasField data (peOffset + 24 + 108) 4 count ∧
          directory = peOffset + 24 + 112 + 4 * 8)

/-- The bytes are the same but for the checksum and the security directory. -/
def SameImage (checksum directory : Nat) (unsigned body : Bytes) : Prop :=
  body.length = unsigned.length ∧
    ∀ i, ¬(checksum ≤ i ∧ i < checksum + 4) → ¬(directory ≤ i ∧ i < directory + 8) → body[i]? = unsigned[i]?

/-- A length in the only form that DER allows. -/
def derLength (n : Nat) : Bytes :=
  if n < 0x80 then [UInt8.ofNat n] else UInt8.ofNat (0x80 + (octets n).length) :: octets n

def DerSequence (bs : Bytes) : Prop := ∃ content, bs = 0x30 :: derLength content.length ++ content

/-- One certificate of revision 2 and type 2 that holds one DER sequence, with zeros up to a multiple of eight. -/
def CertificateTable (table : Bytes) : Prop :=
  ∃ length der padding, table.drop 8 = der ++ padding ∧ DerSequence der ∧ Zeros padding ∧ padding.length < 8 ∧
    8 ∣ table.length ∧ HasField table 0 4 length ∧ HasField table 4 2 0x0200 ∧ HasField table 6 2 0x0002 ∧
    8 + der.length ≤ length ∧ length ≤ table.length

/-- The signed file is the unsigned image with another checksum and security directory, zeros up to a multiple of
eight, and the certificate table that the directory gives. -/
def Permitted (unsigned signed : Bytes) : Prop :=
  ∃ checksum directory, PeImage unsigned checksum directory ∧ PeImage signed checksum directory ∧
    HasField unsigned directory 4 0 ∧ HasField unsigned (directory + 4) 4 0 ∧
    ∃ body padding table, signed = body ++ padding ++ table ∧ SameImage checksum directory unsigned body ∧
      Zeros padding ∧ padding.length < 8 ∧ 8 ∣ (body ++ padding).length ∧
      HasField signed directory 4 (body ++ padding).length ∧ HasField signed (directory + 4) 4 table.length ∧
      CertificateTable table

end OpenAdb.Signing.Authenticode

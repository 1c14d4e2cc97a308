import OpenAdb.Lib.Glob
import OpenAdb.Lib.JavaText
import OpenAdb.Lib.PackageName

namespace OpenAdb.Icons.Extractor

open OpenAdb.Lib.PyText OpenAdb.Lib.Encoding OpenAdb.Lib.Glob OpenAdb.Lib.PackageName
open OpenAdb.Lib.JavaText (formatNat)

def CACHE_VERSION : Text := ['v', '5']

def pngSuffix : Text := ['.', 'p', 'n', 'g']

def reservedInFilename (c : Char) : Bool :=
  c ∈ ['<', '>', ':', '"', '/', '\\', '|', '?', '*'] || c.toNat < 32

def unknownFilename : Text := ['u', 'n', 'k', 'n', 'o', 'w', 'n']

def replaceReserved (s : Text) : Text := s.map (fun c => if reservedInFilename c then '_' else c)

section Names

variable (u : VisibleTables)

def safeFilename (value : Text) : Text :=
  let value := strip u.toUnicodeData value
  replaceReserved (if value = [] then unknownFilename else value)

/-- The name of the file for a package, a version code and a source key. -/
def cacheName (package_name version_code source_key : Text) : Text :=
  let parts := [CACHE_VERSION, source_key, package_name, version_code].filter (· ≠ [])
  safeFilename u (['_'].intercalate parts) ++ pngSuffix

/-- A name with the suffix `.png` in the course of being written by a thread. -/
def tempName (name : Text) (thread : Nat) : Text :=
  let stem := name.take (name.length - pngSuffix.length)
  stem ++ '.' :: formatNat thread ++ ['.', 't', 'm', 'p'] ++ pngSuffix

/-- `*` in a pattern of `glob`; the other special characters do not occur in package names. -/
def globPattern (pattern : Text) : List (Option Char) := pattern.map (fun c => if c = '*' then none else some c)

def scanPatterns (package_name : Text) : List (List (Option Char)) :=
  let safe_package := safeFilename u package_name
  [CACHE_VERSION ++ ['_'] ++ safe_package ++ pngSuffix,
    CACHE_VERSION ++ ['_'] ++ safe_package ++ ['_', '*'] ++ pngSuffix,
    CACHE_VERSION ++ ['_', '*', '_'] ++ safe_package ++ pngSuffix,
    CACHE_VERSION ++ ['_', '*', '_'] ++ safe_package ++ ['_', '*'] ++ pngSuffix].map globPattern

/-- The fallback would take a file of this name for one of the package. -/
def namedLike (package_name name : Text) : Bool :=
  (scanPatterns u package_name).any (fun pattern => matchesPattern pattern name)

end Names

structure Path where
  dir : Text
  name : Text
  deriving DecidableEq

/-- Beside its content, the package of the call that stored it last. -/
structure IconFile where
  owner : Text
  content : Bytes
  deriving DecidableEq

abbrev Index := List (Text × Path)

/-- Give a key a new value. -/
def put {κ β : Type} [DecidableEq κ] (key : κ) (value : β) (entries : List (κ × β)) : List (κ × β) :=
  (key, value) :: entries.filter (fun entry => entry.1 ≠ key)

/-- The extractor and what is on disk: the icon files, and the index file of each cache folder. -/
structure IconExtractor where
  cacheDir : Text
  index : Option Index
  files : List (Path × IconFile)
  savedIndexes : List (Text × Index)
  deriving DecidableEq

/-- An empty cache. -/
def IconExtractor.new (dir : Text) : IconExtractor := ⟨dir, none, [], []⟩

/-- How writing the index file ends; a damaged one is read as empty. -/
inductive IndexWrite
  | written | failed | damaged
  deriving DecidableEq

/-- How writing an icon ends: nothing is written, something stays under the temporary name, or the
target is replaced. -/
inductive IconWrite
  | refused
  | temporary (content : Bytes)
  | replaced
  deriving DecidableEq

namespace IconExtractor

section Cache

variable (u : VisibleTables) (s : IconExtractor)

def cachePath (package_name version_code source_key : Text) : Path :=
  ⟨s.cacheDir, cacheName u package_name version_code source_key⟩

def validIconFile (path : Path) : Bool :=
  match s.files.lookup path with
  | none => false
  | some file => file.content ≠ []

def loadIndex : Index :=
  match s.index with
  | some index => index
  | none => (s.savedIndexes.lookup s.cacheDir).getD []

def saveIndex (write : IndexWrite) : IconExtractor :=
  match s.index with
  | none => s
  | some index =>
    match write with
    | .written => { s with savedIndexes := put s.cacheDir index s.savedIndexes }
    | .failed => s
    | .damaged => { s with savedIndexes := put s.cacheDir [] s.savedIndexes }

def rememberIcon (package_name : Text) (path : Path) (write : IndexWrite) : IconExtractor :=
  if package_name = [] ∨ s.validIconFile path = false then s
  else { s with index := some (put package_name path s.loadIndex) }.saveIndex write

/-- The first one with the latest time. -/
def newest (times : Path → Int) : List Path → Option Path
  | [] => none
  | path :: rest =>
    match newest times rest with
    | none => some path
    | some other => if times path < times other then some other else some path

def scanCandidates (package_name : Text) : List Path :=
  (scanPatterns u package_name).flatMap (fun pattern =>
    (s.files.map (·.1)).filter (fun path =>
      path.dir = s.cacheDir && matchesPattern pattern path.name && s.validIconFile path))

def scanLatestIconForPackage (package_name : Text) (times : Path → Int) : Option Path :=
  newest times (s.scanCandidates u package_name)

def directPath (package_name version_code : Text) (source_keys : List Text) : Option Path :=
  let source_keys := if source_keys = [] then [[]] else source_keys
  (source_keys.map (s.cachePath u package_name version_code)).find? s.validIconFile

def indexedPath (package_name : Text) : Option Path :=
  (s.loadIndex.lookup package_name).filter s.validIconFile

def cachedIconPath (package_name version_code : Text) (source_keys : List Text) (times : Path → Int)
    (write : IndexWrite) : Option Path × IconExtractor :=
  match s.directPath u package_name version_code source_keys with
  | some path => (some path, s.rememberIcon package_name path write)
  | none =>
    let s := { s with index := some s.loadIndex }
    match s.indexedPath package_name with
    | some indexed => (some indexed, s)
    | none =>
      match s.scanLatestIconForPackage u package_name times with
      | some scanned => (some scanned, s.rememberIcon package_name scanned write)
      | none => (none, s)

/-- Write an icon under its target, or part of it under the temporary name. -/
def writeIcon (package_name : Text) (target : Path) (content : Bytes) (thread : Nat) (write : IconWrite) :
    IconExtractor :=
  let temp : Path := ⟨target.dir, tempName target.name thread⟩
  match write with
  | .refused => s
  | .temporary part => { s with files := put temp ⟨package_name, part⟩ s.files }
  | .replaced =>
    { s with files := put target ⟨package_name, content⟩ (s.files.filter (fun entry => entry.1 ≠ temp)) }

/-- Whether the icon was stored, and the cache afterwards. -/
def saveIcon (package_name : Text) (target : Path) (content : Bytes) (thread : Nat) (write : IconWrite)
    (indexWrite : IndexWrite) : Bool × IconExtractor :=
  let written := s.writeIcon package_name target content thread write
  if write = .replaced then (true, written.rememberIcon package_name target indexWrite) else (false, written)

/-- `rendered` is the icon that the image library makes of the data, if it can. -/
def importIconBytes (package_name version_code source_key : Text) (rendered : Option Bytes) (thread : Nat)
    (write : IconWrite) (indexWrite : IndexWrite) : Option Path × IconExtractor :=
  let target := s.cachePath u package_name version_code source_key
  match rendered with
  | none => (none, s)
  | some image =>
    let (stored, s) := s.saveIcon package_name target image thread write indexWrite
    (if stored then some target else none, s)

end Cache

def pngSignature : Bytes := [0x89, 0x50, 0x4e, 0x47, 0x0d, 0x0a, 0x1a, 0x0a]

def looksLikePng (data : Bytes) : Bool := data.length > 8 && pngSignature.isPrefixOf data

structure PreRenderedIcon where
  package_name : Text
  data : Bytes
  version_code : Text
  source_key : Text
  write : IconWrite
  deriving DecidableEq

variable (u : VisibleTables)

/-- One icon of a batch, with the paths stored so far. -/
def importPreRenderedIcon (thread : Nat) (saved : List (Text × Path)) (s : IconExtractor)
    (icon : PreRenderedIcon) : List (Text × Path) × IconExtractor :=
  if icon.package_name = [] ∨ looksLikePng icon.data = false then (saved, s)
  else
    let target := s.cachePath u icon.package_name icon.version_code icon.source_key
    let written := s.writeIcon icon.package_name target icon.data thread icon.write
    if icon.write = .replaced ∧ written.validIconFile target then
      (put icon.package_name target saved,
        { written with index := some (put icon.package_name target written.loadIndex) })
    else (saved, written)

def importPreRenderedIcons (thread : Nat) (saved : List (Text × Path)) (s : IconExtractor) :
    List PreRenderedIcon → List (Text × Path) × IconExtractor
  | [] => (saved, s)
  | icon :: icons =>
    let (saved, s) := importPreRenderedIcon u thread saved s icon
    importPreRenderedIcons thread saved s icons

def importPreRenderedIconBatch (s : IconExtractor) (icons : List PreRenderedIcon) (thread : Nat)
    (indexWrite : IndexWrite) : List (Text × Path) × IconExtractor :=
  if icons = [] then ([], s)
  else
    let (saved, s) := importPreRenderedIcons u thread [] { s with index := some s.loadIndex } icons
    (saved, s.saveIndex indexWrite)

/-- An image of an archive that the library can render, and how storing it ends. -/
structure IconCandidate where
  image : Option Bytes
  write : IconWrite
  indexWrite : IndexWrite
  deriving DecidableEq

/-- An archive: the package of its manifest, if it can be read, and its icons in order of rank. -/
structure Apk where
  isThere : Bool
  package : Text
  candidates : List IconCandidate
  deriving DecidableEq

def storeFirst (package_name : Text) (target : Path) (thread : Nat) (s : IconExtractor) :
    List IconCandidate → Option Path × IconExtractor
  | [] => (none, s)
  | candidate :: candidates =>
    match candidate.image with
    | none => storeFirst package_name target thread s candidates
    | some image =>
      let (stored, s) :=
        s.saveIcon package_name target image thread candidate.write candidate.indexWrite
      if stored then (some target, s) else storeFirst package_name target thread s candidates

def extractFromApk (s : IconExtractor) (apk : Apk) (package_name version_code : Text) (thread : Nat)
    (indexWrite : IndexWrite) : Option Path × IconExtractor :=
  let target := s.cachePath u package_name version_code []
  if s.validIconFile target then (some target, s.rememberIcon package_name target indexWrite)
  else if apk.isThere = false then (none, s)
  else if apk.package ≠ [] ∧ apk.package ≠ package_name then (none, s)
  else storeFirst package_name target thread s apk.candidates

def refreshRoot (s : IconExtractor) (dir : Text) : IconExtractor := { s with cacheDir := dir, index := none }

/-- Some files of the folder may resist. -/
def clearCache (s : IconExtractor) (kept : Path → Bool) (keptIndex : Bool) : IconExtractor :=
  { s with
    files := s.files.filter (fun entry => entry.1.dir ≠ s.cacheDir || kept entry.1)
    savedIndexes := s.savedIndexes.filter (fun entry => entry.1 ≠ s.cacheDir || keptIndex)
    index := some [] }

end IconExtractor

inductive Call
  | importIconBytes (package_name version_code source_key : Text) (rendered : Option Bytes) (thread : Nat)
      (write : IconWrite) (indexWrite : IndexWrite)
  | importPreRenderedIconBatch (icons : List IconExtractor.PreRenderedIcon) (thread : Nat)
      (indexWrite : IndexWrite)
  | extractFromApk (apk : IconExtractor.Apk) (package_name version_code : Text) (thread : Nat)
      (indexWrite : IndexWrite)
  | cachedIconPath (package_name version_code : Text) (source_keys : List Text) (times : Path → Int)
      (indexWrite : IndexWrite)
  | refreshRoot (dir : Text)
  | clearCache (kept : Path → Bool) (keptIndex : Bool)

def Call.run (u : VisibleTables) (s : IconExtractor) : Call → IconExtractor
  | .importIconBytes package_name version_code source_key rendered thread write indexWrite =>
    (s.importIconBytes u package_name version_code source_key rendered thread write indexWrite).2
  | .importPreRenderedIconBatch icons thread indexWrite =>
    (s.importPreRenderedIconBatch u icons thread indexWrite).2
  | .extractFromApk apk package_name version_code thread indexWrite =>
    (s.extractFromApk u apk package_name version_code thread indexWrite).2
  | .cachedIconPath package_name version_code source_keys times indexWrite =>
    (s.cachedIconPath u package_name version_code source_keys times indexWrite).2
  | .refreshRoot dir => s.refreshRoot dir
  | .clearCache kept keptIndex => s.clearCache kept keptIndex

end OpenAdb.Icons.Extractor

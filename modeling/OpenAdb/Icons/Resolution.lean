import Mathlib.Data.List.Dedup
import OpenAdb.Icons.Extractor
import OpenAdb.Lib.Effects
import OpenAdb.Lib.Regex

namespace OpenAdb.Icons.Resolution

open OpenAdb.Lib.PyText OpenAdb.Lib.Encoding OpenAdb.Lib.PackageName OpenAdb.Lib.Regex OpenAdb.Lib.Effects

/-- What `ET.fromstring` makes of a text: the attributes of the elements, a `ParseError` or another raise. -/
inductive Parsed
  | elements (attributes : List (List (Text × Text)))
  | malformed
  | raised

/-- What the resolution calls of Python and of other packages; `none` is a raise. -/
structure Python (ι : Type) extends VisibleTables where
  lower : Text → Text
  isdigit : Char → Bool
  int : Nat → Text → Option Int
  stem : Text → Text
  decode : Bytes → Text
  axml : Bytes → Text
  fromstring : Text → Parsed
  openImage : Bytes → Option ι
  convert : ι → Option ι
  compositeIconLayers : ι → ι → Option ι

/-- An open archive: its names in their order, and what reading an entry gives. -/
structure Archive where
  namelist : List Text
  content : Text → Option Bytes

inductive Raised
  | recursion
  | other
  deriving DecidableEq

/-- The names looked at in one resolution, and the entries opened. -/
structure State where
  seen : List Text
  opened : List Text

def State.mark (name : Text) (s : State) : State := { s with seen := name :: s.seen }

def rasterSuffixes : List Text := [".png".toList, ".webp".toList, ".jpg".toList, ".jpeg".toList]

def xmlSuffix : Text := ".xml".toList

def endsWith (suffixes : List Text) (s : Text) : Bool := suffixes.any (fun suffix => suffix.isSuffixOf s)

inductive Part
  | reference | type | name | id
  deriving DecidableEq

def literal (s : Text) : Pattern Part := .sequence (s.map (fun c => .letter (· = c)))

def unquoted : Pattern Part := .plus (.letter (· ≠ '"'))

def drawableReference : Pattern Part :=
  .sequence [literal "=\"".toList,
    .group .reference (.sequence
      [literal "@".toList, .oneOf (literal "mipmap".toList) [literal "drawable".toList], literal "/".toList,
        unquoted]),
    literal "\"".toList]

def densityOrder : List Text :=
  ["xxxhdpi".toList, "xxhdpi".toList, "xhdpi".toList, "hdpi".toList, "mdpi".toList, "nodpi".toList,
    "anydpi".toList]

structure Rank where
  exact : Nat
  density : Nat
  raster : Nat
  length : Nat

/-- The order of tuples. -/
def Rank.le (a b : Rank) : Bool :=
  a.exact < b.exact || a.exact = b.exact && (a.density < b.density || a.density = b.density &&
    (a.raster < b.raster || a.raster = b.raster && a.length ≤ b.length))

abbrev ResourceIds := List (Int × Text)

section Lookups

variable {ι : Type} (p : Python ι)

def publicResource : Pattern Part :=
  .sequence [literal "<public".toList, .plus (.letter p.isSpace),
    literal "type=\"".toList, .group .type unquoted, literal "\"".toList, .plus (.letter p.isSpace),
    literal "name=\"".toList, .group .name unquoted, literal "\"".toList, .plus (.letter p.isSpace),
    literal "id=\"".toList, .group .id unquoted, literal "\"".toList]

def candidateRank (value : Text) : Rank :=
  let lower := p.lower value
  { exact := if p.lower (p.stem value) ∈ ["ic_launcher".toList, "ic_launcher_round".toList] then 0 else 1
    density := densityOrder.findIdx (fun token => token <:+: lower)
    raster := if endsWith rasterSuffixes lower then 0 else 1
    length := value.length }

def sortCandidates (names : List Text) : List Text :=
  names.mergeSort (fun a b => (candidateRank p a).le (candidateRank p b))

def afterColon (s : Text) : Text := if ':' ∈ s then (s.dropWhile (· ≠ ':')).tail else s

def parseResourceId (value : Text) : Option Int :=
  let raw := afterColon (lstripChar '@' (strip p.toUnicodeData value))
  let raw := if ['+'].isPrefixOf raw then raw.drop 1 else raw
  let raw := if ['0', 'x'].isPrefixOf raw then raw.drop 2 else raw
  if raw = [] then none
  else if raw.all p.isdigit && raw.length > 8 then p.int 10 raw
  else p.int 16 raw

/-- `none` when the package or its resource table cannot be read. -/
def resourceIdMap (xmlChunks : Option (List Text)) : ResourceIds :=
  (xmlChunks.getD []).foldl (fun result xmlText =>
    (findall (publicResource p) xmlText).foldl (fun result found =>
      match parseResourceId p (found.group .id) with
      | none => result
      | some parsed =>
        Extractor.put parsed ('@' :: found.group .type ++ '/' :: found.group .name) result) result) []

variable (archive : Archive)

/-- The files of a resource type with the name of the resource. -/
def namedPaths (resourceType resourceName : Text) : List Text :=
  sortCandidates p (archive.namelist.filter (fun name =>
    (p.lower ("res/".toList ++ resourceType)).isPrefixOf (p.lower name) && p.stem name = resourceName &&
      endsWith (xmlSuffix :: rasterSuffixes) (p.lower name)))

/-- The number bounds the calls inside each other. -/
def pathsForResourceRef (resourceIdMap : ResourceIds) : Nat → Text → Except Raised (List Text)
  | 0, _ => .error .recursion
  | depth + 1, ref =>
    let ref := strip p.toUnicodeData ref
    if ref.head? ≠ some '@' then .ok []
    else
      let raw := lstripChar '@' ref
      if '/' ∉ raw then
        let mappedRef := ((parseResourceId p ref).bind (fun id => resourceIdMap.lookup id)).getD []
        if mappedRef ≠ [] ∧ mappedRef ≠ ref then pathsForResourceRef resourceIdMap depth mappedRef else .ok []
      else
        let raw := afterColon raw
        -- a slash only before the colon is a tuple of one
        if '/' ∉ raw then .error .other
        else
          .ok (namedPaths p archive (raw.takeWhile (· ≠ '/'))
            ((raw.dropWhile (· ≠ '/')).tail.takeWhile (· ≠ '#')))

/-- The class of characters is `_`, the backslash and `W`. -/
def stemTokens (stem : Text) : List Text :=
  ((p.lower stem).splitOnP (fun c => c ∈ ['_', '\\', 'W'])).filter (fun token =>
    token ≠ [] && token ∉ ["ic".toList, "launcher".toList])

def heuristicXmlLayerCandidates (xmlName : Text) : List Text :=
  let stem := p.stem xmlName
  let wanted :=
    [replaceText "ic_launcher".toList "ic_launcher_foreground".toList stem,
      replaceText "launcher".toList "adaptive_foreground".toList stem,
      replaceText "launcher".toList "foreground".toList stem, stem ++ "_foreground".toList]
  let tokens := stemTokens p stem
  sortCandidates p (archive.namelist.filter (fun name =>
    endsWith (xmlSuffix :: rasterSuffixes) (p.lower name) &&
      ("res/mipmap".toList.isPrefixOf (p.lower name) || "res/drawable".toList.isPrefixOf (p.lower name)) &&
      (p.stem name ∈ wanted || !tokens.isEmpty && "foreground".toList <:+: p.lower (p.stem name) &&
        tokens.all (fun token => token <:+: p.lower (p.stem name)))))

def decodeResourceXml (data : Bytes) : Text :=
  let text := p.decode data
  if '<' ∈ text.take 80 then text else p.axml data

def localName (key : Text) : Text := key.rtakeWhile (· ≠ '}')

def isLayerAttribute (entry : Text × Text) : Bool :=
  localName entry.1 ∈ ["foreground".toList, "background".toList, "src".toList, "drawable".toList] &&
    entry.2.head? = some '@'

def refsOf (text : Text) : Except Raised (List Text) :=
  match p.fromstring text with
  | .elements attributes => .ok ((attributes.flatten.filter isLayerAttribute).map Prod.snd).eraseDups
  | .malformed => .ok ((findall drawableReference text).map (fun found => found.group .reference)).eraseDups
  | .raised => .error .other

end Lookups

def orRaise {α : Type} : Option α → Except Raised α
  | none => .error .other
  | some a => .ok a

section Images

variable {ι : Type} (p : Python ι) (archive : Archive) (resourceIdMap : ResourceIds)

def openEntry (name : Text) : Effect Raised State Bytes := do
  update (fun s => { s with opened := name :: s.opened })
  lift (orRaise (archive.content name))

def drawableRefsFromXml (name : Text) : Effect Raised State (List Text) := do
  let data ← catching (do
    let data ← openEntry archive name
    pure (some data)) (fun _ => pure none)
  match data with
  | none => pure []
  | some data =>
    let text := decodeResourceXml p data
    if text = [] then pure [] else lift (refsOf p text)

/-- The image of the first candidate that has one. -/
def firstImage (load : Text → Effect Raised State (Option ι)) : List Text → Effect Raised State (List ι)
  | [] => pure []
  | candidate :: candidates => do
    let image ← load candidate
    match image with
    | none => firstImage load candidates
    | some image => do
      let converted ← lift (orRaise (p.convert image))
      pure [converted]

def layers (paths : Text → Except Raised (List Text)) (load : Text → Effect Raised State (Option ι)) :
    List Text → Effect Raised State (List ι)
  | [] => pure []
  | ref :: refs => do
    let candidates ← lift (paths ref)
    let first ← firstImage p load candidates
    let rest ← layers paths load refs
    pure (first ++ rest)

def compose : List ι → Except Raised (Option ι)
  | [] => .ok none
  | [image] => .ok (some image)
  | background :: foreground :: _ => (orRaise (p.compositeIconLayers background foreground)).map some

def orHeuristic (load : Text → Effect Raised State (Option ι)) (name : Text) (images : List ι) :
    Effect Raised State (List ι) :=
  if images.isEmpty then firstImage p load (heuristicXmlLayerCandidates p archive name) else pure images

/-- What is done for a name that was not seen before. -/
def render (paths : Text → Except Raised (List Text)) (load : Text → Effect Raised State (Option ι))
    (name : Text) : Effect Raised State (Option ι) :=
  if endsWith rasterSuffixes (p.lower name) then do
    let data ← openEntry archive name
    let image ← lift (orRaise (p.openImage data))
    pure (some image)
  else if endsWith [xmlSuffix] (p.lower name) then do
    let refs ← drawableRefsFromXml p archive name
    let images ← layers p paths load refs
    let images ← orHeuristic p archive load name images
    lift (compose p images)
  else pure none

/-- The number bounds the calls inside each other. -/
def loadIconImage : Nat → Text → Effect Raised State (Option ι)
  | 0, _ => raise .recursion
  | depth + 1, name => do
    let seen ← read State.seen
    if name ∈ seen then pure none
    else do
      update (State.mark name)
      render p archive (pathsForResourceRef p archive resourceIdMap depth) (loadIconImage depth) name

end Images

section Candidates

variable {ι : Type} {p : Python ι} {archive : Archive} {ids : ResourceIds}

theorem mem_of_mem_sortCandidates {names : List Text} {name : Text} (h : name ∈ sortCandidates p names) :
    name ∈ names :=
  List.mem_mergeSort.mp h

theorem mem_of_mem_namedPaths {resourceType resourceName name : Text}
    (h : name ∈ namedPaths p archive resourceType resourceName) : name ∈ archive.namelist :=
  List.mem_of_mem_filter (mem_of_mem_sortCandidates h)

theorem mem_of_mem_heuristic {xmlName name : Text} (h : name ∈ heuristicXmlLayerCandidates p archive xmlName) :
    name ∈ archive.namelist :=
  List.mem_of_mem_filter (mem_of_mem_sortCandidates h)

theorem mem_of_mem_paths {depth : Nat} {ref name : Text} {names : List Text}
    (h : pathsForResourceRef p archive ids depth ref = .ok names) (hname : name ∈ names) :
    name ∈ archive.namelist := by
  induction depth generalizing ref with
  | zero => cases h
  | succ depth ih =>
    rw [pathsForResourceRef] at h
    dsimp only at h
    split_ifs at h
    · cases h
      cases hname
    · cases h
      exact mem_of_mem_namedPaths hname
    · exact ih h
    · cases h
      cases hname

/-- What a resource id leads to is a reference with a slash. -/
def Resolved (ids : ResourceIds) : Prop := ∀ entry ∈ ids, ∃ rest, entry.2 = '@' :: rest ∧ '/' ∈ rest

theorem resolved_put {id : Int} {rest : Text} (h : Resolved ids) (hrest : '/' ∈ rest) :
    Resolved (Extractor.put id ('@' :: rest) ids) := by
  intro entry hentry
  obtain rfl | hentry := List.mem_cons.mp hentry
  · exact ⟨rest, rfl, hrest⟩
  · exact h entry (List.mem_of_mem_filter hentry)

theorem resolved_found (found : List (Place Part)) (h : Resolved ids) :
    Resolved (found.foldl (fun result found =>
      match parseResourceId p (found.group .id) with
      | none => result
      | some parsed =>
        Extractor.put parsed ('@' :: found.group .type ++ '/' :: found.group .name) result) ids) := by
  induction found generalizing ids with
  | nil => exact h
  | cons found rest ih =>
    rw [List.foldl_cons]
    refine ih ?_
    cases parseResourceId p (found.group .id) with
    | none => exact h
    | some parsed => exact resolved_put h (List.mem_append_right _ List.mem_cons_self)

theorem resolved_resourceIdMap (p : Python ι) (xmlChunks : Option (List Text)) :
    Resolved (resourceIdMap p xmlChunks) := by
  have hall : ∀ (chunks : List Text) (ids : ResourceIds), Resolved ids →
      Resolved (chunks.foldl (fun result xmlText =>
        (findall (publicResource p) xmlText).foldl (fun result found =>
          match parseResourceId p (found.group .id) with
          | none => result
          | some parsed =>
            Extractor.put parsed ('@' :: found.group .type ++ '/' :: found.group .name) result) result) ids) := by
    intro chunks
    induction chunks with
    | nil => exact fun _ h => h
    | cons chunk chunks ih => exact fun ids h => ih _ (resolved_found _ h)
  exact hall _ [] (fun _ h => absurd h List.not_mem_nil)

theorem mem_dropWhile {f : Char → Bool} {c : Char} {s : Text} (h : c ∈ s) (hc : f c = false) :
    c ∈ s.dropWhile f := by
  rw [← List.takeWhile_append_dropWhile (p := f) (l := s)] at h
  refine (List.mem_append.mp h).resolve_left fun htake => ?_
  have htrue : f c = true := List.mem_takeWhile_imp htake
  rw [hc] at htrue
  cases htrue

/-- A reference with a slash is not looked up again. -/
theorem paths_slash (depth : Nat) {rest : Text} (hrest : '/' ∈ rest) :
    pathsForResourceRef p archive ids (depth + 1) ('@' :: rest) ≠ .error .recursion := by
  have hat : p.isSpace '@' = false := p.isSpace_visible '@' (by decide) (by decide)
  have hslash : p.isSpace '/' = false := p.isSpace_visible '/' (by decide) (by decide)
  obtain ⟨a, b, rfl⟩ := List.append_of_mem hrest
  have hstrip : strip p.toUnicodeData ('@' :: (a ++ '/' :: b)) = '@' :: (a ++ '/' :: b.rdropWhile p.isSpace) := by
    rw [strip, List.dropWhile_cons_of_neg (by simp [hat]), ← List.cons_append,
      rdropWhile_append_cons _ hslash, List.cons_append]
  have hraw : '/' ∈ lstripChar '@' ('@' :: (a ++ '/' :: b.rdropWhile p.isSpace)) :=
    mem_dropWhile (List.mem_cons_of_mem _ (List.mem_append_right _ List.mem_cons_self)) (by decide)
  rw [pathsForResourceRef, hstrip]
  dsimp only
  rw [if_neg (by simp), if_neg (not_not.mpr hraw)]
  split_ifs
  · exact fun h => by cases h
  · exact fun h => by cases h

theorem paths_ends (hids : Resolved ids) (depth : Nat) (ref : Text) :
    pathsForResourceRef p archive ids (depth + 2) ref ≠ .error .recursion := by
  rw [pathsForResourceRef]
  dsimp only
  split_ifs with hat hslash hcolon hmapped
  · exact fun h => by cases h
  · exact fun h => by cases h
  · exact fun h => by cases h
  · cases hlookup : (parseResourceId p (strip p.toUnicodeData ref)).bind (fun id => ids.lookup id) with
    | none =>
      rw [hlookup] at hmapped
      exact absurd rfl hmapped.1
    | some mapped =>
      obtain ⟨id, -, hid⟩ := Option.bind_eq_some_iff.mp hlookup
      obtain ⟨before, after, hentries, -⟩ := List.lookup_eq_some_iff.mp hid
      obtain ⟨rest, hrest, hmem⟩ := hids (id, mapped) (by rw [hentries]; simp)
      dsimp only at hrest
      rw [Option.getD_some, hrest]
      exact paths_slash depth hmem
  · exact fun h => by cases h

end Candidates

section Rules

variable {ι : Type} {p : Python ι} {archive : Archive} {I K : State → Prop} {E : Raised → State → Prop}
  {load : Text → Effect Raised State (Option ι)} {name : Text}

theorem orRaise_error {α : Type} {o : Option α} {e : Raised} (h : orRaise o = .error e) : e = .other := by
  cases o with
  | none =>
    cases h
    rfl
  | some a => cases h

theorem lift_orRaise_meets {α : Type} (o : Option α) (hother : ∀ s, I s → E .other s) :
    Meets I (lift (orRaise o)) (fun _ => I) E := by
  refine Meets.lift (fun _ _ _ h => h) (fun e he s hs => ?_)
  rw [orRaise_error he]
  exact hother s hs

theorem openEntry_meets (hopen : ∀ s, K s → I { s with opened := name :: s.opened }) :
    Meets K (openEntry archive name) (fun _ => I) (fun e s => e = .other ∧ I s) :=
  Meets.bind (Meets.update hopen) fun _ =>
    Meets.lift (fun _ _ _ h => h) (fun _ he _ h => ⟨orRaise_error he, h⟩)

theorem refsOf_error {text : Text} {e : Raised} (h : refsOf p text = .error e) : e = .other := by
  rw [refsOf] at h
  split at h
  · cases h
  · cases h
  · cases h
    rfl

theorem drawableRefs_meets (hopen : Meets K (openEntry archive name) (fun _ => I) (fun e s => e = .other ∧ I s))
    (hother : ∀ s, I s → E .other s) : Meets K (drawableRefsFromXml p archive name) (fun _ => I) E := by
  have hdata : Meets K (catching (do
      let data ← openEntry archive name
      pure (some data)) (fun _ => pure none)) (fun _ => I) E :=
    Meets.catching (Meets.bind hopen fun _ => Meets.pure fun _ h => h) fun _ => Meets.pure fun _ h => h.2
  refine Meets.bind hdata fun data => ?_
  cases data with
  | none => exact Meets.pure fun _ h => h
  | some data =>
    refine Meets.ite (fun _ => Meets.pure fun _ h => h) fun _ => Meets.lift (fun _ _ _ h => h) ?_
    intro e he s hs
    rw [refsOf_error he]
    exact hother s hs

theorem firstImage_meets {candidates : List Text} (hother : ∀ s, I s → E .other s)
    (hload : ∀ candidate ∈ candidates, Meets I (load candidate) (fun _ => I) E) :
    Meets I (firstImage p load candidates) (fun _ => I) E := by
  induction candidates with
  | nil => exact Meets.pure fun _ h => h
  | cons candidate candidates ih =>
    obtain ⟨hfirst, hrest⟩ := List.forall_mem_cons.mp hload
    refine Meets.bind hfirst fun image => ?_
    cases image with
    | none => exact ih hrest
    | some image => exact Meets.bind (lift_orRaise_meets _ hother) fun _ => Meets.pure fun _ h => h

theorem layers_meets {paths : Text → Except Raised (List Text)} (hother : ∀ s, I s → E .other s)
    (hpaths : ∀ ref e, paths ref = .error e → ∀ s, I s → E e s)
    (hload : ∀ ref names, paths ref = .ok names → ∀ candidate ∈ names, Meets I (load candidate) (fun _ => I) E)
    (refs : List Text) : Meets I (layers p paths load refs) (fun _ => I) E := by
  induction refs with
  | nil => exact Meets.pure fun _ h => h
  | cons ref refs ih =>
    refine Meets.bind (Q := fun names s => I s ∧ paths ref = .ok names) ?_ fun names => ?_
    · exact Meets.lift (fun _ ha _ h => ⟨h, ha⟩) (hpaths ref)
    · refine Meets.of_pre (fun _ h => h.2) fun hnames => ?_
      refine Meets.bind ((firstImage_meets hother (hload ref names hnames)).mono (fun _ h => h.1) (fun _ _ h => h)
        (fun _ _ h => h)) fun _ => ?_
      exact Meets.bind ih fun _ => Meets.pure fun _ h => h

theorem compose_error {images : List ι} {e : Raised} (h : compose p images = .error e) : e = .other := by
  match images, h with
  | [], h => cases h
  | [_], h => cases h
  | background :: foreground :: _, h =>
    rw [compose] at h
    cases hcomposite : p.compositeIconLayers background foreground with
    | none =>
      rw [hcomposite] at h
      cases h
      rfl
    | some image =>
      rw [hcomposite] at h
      cases h

/-- Whatever opening the entry establishes, and every load of a candidate keeps, holds in the end. -/
theorem render_meets {paths : Text → Except Raised (List Text)}
    (hopen : Meets K (openEntry archive name) (fun _ => I) (fun e s => e = .other ∧ I s))
    (hskip : ∀ s, K s → I s) (hother : ∀ s, I s → E .other s)
    (hpaths : ∀ ref e, paths ref = .error e → ∀ s, I s → E e s)
    (hnames : ∀ ref names, paths ref = .ok names → ∀ candidate ∈ names, candidate ∈ archive.namelist)
    (hload : ∀ candidate ∈ archive.namelist, Meets I (load candidate) (fun _ => I) E) :
    Meets K (render p archive paths load name) (fun _ => I) E := by
  refine Meets.ite (fun _ => ?_) fun _ => Meets.ite (fun _ => ?_) fun _ => Meets.pure hskip
  · refine Meets.bind (hopen.weaken fun e s h => ?_) fun data => ?_
    · rw [h.1]
      exact hother s h.2
    · exact Meets.bind (lift_orRaise_meets _ hother) fun _ => Meets.pure fun _ h => h
  · refine Meets.bind (drawableRefs_meets hopen hother) fun refs => ?_
    refine Meets.bind (layers_meets hother hpaths (fun ref names h c hc => hload c (hnames ref names h c hc)) refs)
      fun images => ?_
    have hheuristic : Meets I (orHeuristic p archive load name images) (fun _ => I) E :=
      Meets.ite (fun _ => firstImage_meets hother fun c hc => hload c (mem_of_mem_heuristic hc))
        fun _ => Meets.pure fun _ h => h
    refine Meets.bind hheuristic fun images => ?_
    refine Meets.lift (fun _ _ _ h => h) fun e he s hs => ?_
    rw [compose_error he]
    exact hother s hs

end Rules

/-- No entry was opened twice, and none before its name was noted. -/
structure Tidy (s : State) : Prop where
  nodup : s.opened.Nodup
  seen : s.opened ⊆ s.seen

/-- The number of names of the archive that may still be looked at. -/
def unseen (archive : Archive) (s : State) : Nat :=
  (archive.namelist.dedup.filter (fun name => name ∉ s.seen)).length

section Runs

variable {ι : Type} {p : Python ι} {archive : Archive} {ids : ResourceIds} {name : Text} {s : State}

theorem loadIconImage_tidy (depth : Nat) (name : Text) :
    Meets Tidy (loadIconImage p archive ids depth name) (fun _ => Tidy) (fun _ => Tidy) := by
  induction depth generalizing name with
  | zero => exact Meets.raise fun _ h => h
  | succ depth ih =>
    refine Meets.bind (Q := fun seen s => Tidy s ∧ seen = s.seen) (Meets.read fun _ h => ⟨h, rfl⟩) fun seen => ?_
    refine Meets.ite (fun _ => Meets.pure fun _ h => h.1) fun hnew => ?_
    refine Meets.bind (Q := fun _ s => Tidy s ∧ name ∈ s.seen ∧ name ∉ s.opened) (Meets.update ?_) fun _ => ?_
    · rintro s ⟨htidy, rfl⟩
      refine ⟨⟨htidy.nodup, fun other h => List.mem_cons_of_mem _ (htidy.seen h)⟩, List.mem_cons_self, ?_⟩
      exact fun hopened => hnew (htidy.seen hopened)
    · refine render_meets (openEntry_meets ?_) (fun _ h => h.1) (fun _ h => h) (fun _ _ _ _ h => h)
        (fun _ _ h _ hc => mem_of_mem_paths h hc) fun candidate _ => ih candidate
      rintro s ⟨htidy, hseen, hopened⟩
      exact ⟨List.nodup_cons.mpr ⟨hopened, htidy.nodup⟩, List.cons_subset.mpr ⟨hseen, htidy.seen⟩⟩

theorem unseen_mark_le (archive : Archive) (s : State) (name : Text) :
    unseen archive (s.mark name) ≤ unseen archive s := by
  refine (List.monotone_filter_right _ fun other h => ?_).length_le
  rw [decide_eq_true_eq] at h ⊢
  exact fun hseen => h (List.mem_cons_of_mem _ hseen)

theorem unseen_mark_lt (hmem : name ∈ archive.namelist) (hnew : name ∉ s.seen) :
    unseen archive (s.mark name) < unseen archive s := by
  have hsplit : (archive.namelist.dedup.filter (fun other => other ∉ s.seen)).filter (fun other => other ≠ name) =
      archive.namelist.dedup.filter (fun other => other ∉ (s.mark name).seen) := by
    rw [List.filter_filter]
    refine List.filter_congr fun other _ => ?_
    simp [State.mark]
  rw [unseen, ← hsplit, unseen]
  refine List.length_filter_lt_length_iff_exists.mpr ⟨name, ?_, by simp⟩
  exact List.mem_filter.mpr ⟨List.mem_dedup.mpr hmem, decide_eq_true hnew⟩

/-- A load goes no deeper than there are names to look at. The first name need not be one of the archive. -/
theorem loadIconImage_ends (hids : Resolved ids) {n depth : Nat} (hdepth : n + 2 ≤ depth)
    (hname : name ∈ archive.namelist ∨ n + 3 ≤ depth) :
    Meets (fun s => unseen archive s ≤ n) (loadIconImage p archive ids depth name)
      (fun _ s => unseen archive s ≤ n) (fun e _ => e ≠ .recursion) := by
  induction depth generalizing n name with
  | zero => omega
  | succ depth ih =>
    refine Meets.bind (Q := fun seen s => unseen archive s ≤ n ∧ seen = s.seen) (Meets.read fun _ h => ⟨h, rfl⟩)
      fun seen => ?_
    refine Meets.ite (fun _ => Meets.pure fun _ h => h.1) fun hnew => ?_
    have hleft : ∀ s, unseen archive s ≤ n ∧ seen = s.seen → name ∈ archive.namelist → 0 < n := by
      rintro s ⟨hs, rfl⟩ hmem
      exact (Nat.zero_lt_of_lt (unseen_mark_lt hmem hnew)).trans_le hs
    refine Meets.of_pre hleft fun hpos => ?_
    have hmarked : ∃ m, m ≤ n ∧ m + 2 ≤ depth ∧ ∀ s, unseen archive s ≤ n → name ∉ s.seen →
        unseen archive (s.mark name) ≤ m := by
      by_cases hmem : name ∈ archive.namelist
      · have hn := hpos hmem
        refine ⟨n - 1, Nat.sub_le n 1, by omega, fun s hs hseen => ?_⟩
        have hlt := unseen_mark_lt hmem hseen
        omega
      · refine ⟨n, le_rfl, ?_, fun s hs _ => (unseen_mark_le archive s name).trans hs⟩
        have hlong := hname.resolve_left hmem
        omega
    obtain ⟨m, hm, hdeep, hmark⟩ := hmarked
    refine Meets.bind (Q := fun _ s => unseen archive s ≤ m) (Meets.update ?_) fun _ => ?_
    · rintro s ⟨hs, rfl⟩
      exact hmark s hs hnew
    · have hrender := @render_meets _ p archive (fun s => unseen archive s ≤ m) (fun s => unseen archive s ≤ m)
        (fun e _ => e ≠ .recursion) (loadIconImage p archive ids depth) name
        (pathsForResourceRef p archive ids depth) (openEntry_meets fun _ h => h) (fun _ h => h)
        (fun _ _ h => by cases h) ?_ (fun _ _ h _ hc => mem_of_mem_paths h hc)
        fun candidate hc => ih hdeep (.inl hc)
      · exact hrender.mono (fun _ h => h) (fun _ _ h => h.trans hm) (fun _ _ h => h)
      · rintro ref e he s - rfl
        obtain ⟨k, rfl⟩ := Nat.exists_eq_add_of_le' (show 2 ≤ depth by omega)
        exact paths_ends hids k ref he

end Runs

/-- In one resolution no entry is opened twice, however deep the calls may go, and they go no deeper than the
archive has names, and three more. -/
theorem icon_resolution_ends {ι : Type} (p : Python ι) (archive : Archive) (xmlChunks : Option (List Text))
    (name : Text) :
    (∀ depth, (loadIconImage p archive (resourceIdMap p xmlChunks) depth name ⟨[], []⟩).2.opened.Nodup) ∧
      ∀ extra, (loadIconImage p archive (resourceIdMap p xmlChunks) (archive.namelist.dedup.length + 3 + extra)
        name ⟨[], []⟩).1 ≠ .error .recursion := by
  constructor
  · intro depth
    have htidy : Tidy ⟨[], []⟩ := ⟨List.nodup_nil, List.nil_subset _⟩
    have h := @loadIconImage_tidy _ p archive (resourceIdMap p xmlChunks) depth name _ htidy
    cases hrun : loadIconImage p archive (resourceIdMap p xmlChunks) depth name ⟨[], []⟩ with
    | mk outcome s =>
      rw [hrun] at h
      cases outcome with
      | ok image => exact h.nodup
      | error e => exact h.nodup
  · intro extra hrun
    have hstart : unseen archive ⟨[], []⟩ ≤ archive.namelist.dedup.length + extra :=
      (List.length_filter_le _ _).trans (Nat.le_add_right _ _)
    have h := @loadIconImage_ends _ p archive _ name (resolved_resourceIdMap p xmlChunks) _
      (archive.namelist.dedup.length + 3 + extra) (by omega) (.inr (by omega)) _ hstart
    cases hload : loadIconImage p archive (resourceIdMap p xmlChunks)
        (archive.namelist.dedup.length + 3 + extra) name ⟨[], []⟩ with
    | mk outcome s =>
      rw [hload] at h hrun
      dsimp only at hrun
      rw [hrun] at h
      exact h rfl

end OpenAdb.Icons.Resolution

import OpenAdb.P2p.Agreement
import OpenAdb.P2p.Publication

namespace OpenAdb.P2p.Replacement

open OpenAdb.Lib.PyText OpenAdb.Lib.Encoding OpenAdb.Lib.JavaText OpenAdb.Lib.Effects OpenAdb.Lib.FileTree
open OpenAdb.P2p.Wire OpenAdb.P2p.Receiver OpenAdb.P2p.Storage OpenAdb.P2p.Publication
open OpenAdb.P2p.Agreement (sampleCrypto fullReads receiveVerifiedPayload_run)

/-- How the storage answers one operation: it takes place, or it returns false or null, or it raises. -/
inductive Reply
  | done
  | refused
  | raised (e : JavaException)
  deriving DecidableEq

/-- The answers to the operations that replace a file. The copy may raise after so many bytes. -/
structure Answers where
  closeTemp : Reply
  deleteExisting : Reply
  rename : Reply
  createCopy : Reply
  openInput : Reply
  openOutput : Reply
  copyStops : Option (Nat × JavaException)
  deletePartial : Reply
  deleteTemp : Reply
  deleteUncommitted : Reply
  deriving DecidableEq

def operation (reply : Reply) (f : Files → Files) : Effect JavaException Files Bool :=
  match reply with
  | .done => do
    update f
    return true
  | .refused => pure false
  | .raised e => raise e

/-- An exception is caught, and taken for a failure. -/
def ignoring (x : Effect JavaException Files Bool) : Effect JavaException Files Bool := fun t =>
  match x t with
  | (.ok result, u) => (.ok result, u)
  | (.error _, u) => (.ok false, u)

variable (reads : ReadSizes) (a : Answers) (h : TempFile)

def deleteDocument (reply : Reply) (path : List Text) : Effect JavaException Files Bool :=
  operation reply (fun t => t.erase path)

def renameDocument : Effect JavaException Files Bool :=
  operation a.rename
    (fun t => (t.erase h.temp).insert h.target (.file ((contentAt t h.temp).getD [])))

/-- Create an empty file, or empty a file. -/
def openEmpty (reply : Reply) : Effect JavaException Files Bool :=
  operation reply (fun t => t.insert h.target (.file []))

def appendTarget (chunk : Bytes) : Effect JavaException Files Unit :=
  update (fun t => t.insert h.target (.file ((contentAt t h.target).getD [] ++ chunk)))

/-- The loop of the copy, with what is left to read and to happen. -/
def copyLoop (stops : Option (Nat × JavaException)) (source : Bytes) : Effect JavaException Files Unit :=
  if _h0 : source = [] then
    match stops with
    | none => pure ()
    | some (_, e) => raise e
  else
    let read := min COPY_BUFFER_SIZE (reads.size source COPY_BUFFER_SIZE)
    match stops with
    | none => do
      appendTarget h (source.take read)
      copyLoop none (source.drop read)
    | some (n, e) =>
      if n < (source.take read).length then do
        appendTarget h (source.take n)
        raise e
      else do
        appendTarget h (source.take read)
        copyLoop (some (n - (source.take read).length, e)) (source.drop read)
termination_by source.length
decreasing_by
  all_goals
    have hpos := reads.pos source COPY_BUFFER_SIZE (by decide)
    have hlen := List.length_pos_iff.mpr _h0
    have hbuffer : 0 < COPY_BUFFER_SIZE := by decide
    rw [List.length_drop]
    omega

/-- The target is open for writing; the exceptions of the loop follow. -/
def copyContent : Effect JavaException Files Unit := do
  let source ← read (fun t => (contentAt t h.temp).getD [])
  copyLoop reads h a.copyStops source

def copyDirectFile : Effect JavaException Files Unit :=
  onRaise
    (do
      let input ← operation a.openInput id
      require input ⟨.io, []⟩
      let output ← openEmpty h a.openOutput
      require output ⟨.io, []⟩
      copyContent reads a h)
    (deleteDocument a.deletePartial h.target)

def copyDocument : Effect JavaException Files Unit := do
  let fileName := h.target.getLast?.getD []
  let created ← openEmpty h a.createCopy
  require created ⟨.io, "SAF provider cannot rename or create ".toList ++ fileName⟩
  onRaise
    (do
      let input ← operation a.openInput id
      let output ← openEmpty h a.openOutput
      require (input ∧ output) ⟨.io, "SAF provider cannot finalize ".toList ++ fileName⟩
      copyContent reads a h)
    (deleteDocument a.deletePartial h.target)

/-- An output stream has no result to report a failure to close with. -/
def closeTemp : Effect JavaException Files Unit := do
  let _ ← operation a.closeTemp id
  return ()

def replaceError : JavaException := ⟨.io, "Could not replace existing file ".toList ++ h.relativePath⟩

/-- A provider may not support renaming. -/
def renameOrCopyDocument : Effect JavaException Files Unit := do
  let renamed ← ignoring (renameDocument a h)
  if renamed then pure ()
  else do
    copyDocument reads a h
    let _ ← deleteDocument a.deleteTemp h.temp
    return ()

def renameOrCopyFile : Effect JavaException Files Unit := do
  let renamed ← renameDocument a h
  if renamed then pure ()
  else do
    copyDirectFile reads a h
    let _ ← deleteDocument a.deleteTemp h.temp
    return ()

/-- `receiveFile` after the checks. -/
def publishSaf : Effect JavaException Files Unit := do
  closeTemp a
  let deleted ← if h.existing then deleteDocument a.deleteExisting h.target else pure true
  require deleted (replaceError h)
  renameOrCopyDocument reads a h

/-- `receiveDirectFile` after the checks. -/
def publishDirect : Effect JavaException Files Unit := do
  closeTemp a
  let there ← read (fun t => (t.lookup h.target).isSome)
  let deleted ← if there then deleteDocument a.deleteExisting h.target else pure true
  require deleted (replaceError h)
  renameOrCopyFile reads a h

def publish (access : Access) : Effect JavaException Files Unit :=
  match access with
  | .saf => publishSaf reads a h
  | .direct => publishDirect reads a h

/-- What is not committed is removed. -/
def discard : Effect JavaException Files Unit := do
  let _ ← deleteDocument a.deleteUncommitted h.temp
  return ()

/-- The two kinds of access with a storage that answers in this way. -/
def answering (names : FreshNames Text Bytes) (access : Access) : Storage Files TempFile :=
  { storageOf names true access with
    publish := fun h => publish reads a h access
    discard := discard a }

/-! Which answers lose a file -/

def Answers.copyFails (access : Access) : Prop :=
  (access = .saf ∧ a.createCopy ≠ .done) ∨ a.openInput ≠ .done ∨ a.openOutput ≠ .done ∨ a.copyStops ≠ none

instance (access : Access) : Decidable (a.copyFails access) :=
  inferInstanceAs (Decidable ((access = .saf ∧ a.createCopy ≠ .done) ∨ a.openInput ≠ .done ∨
    a.openOutput ≠ .done ∨ a.copyStops ≠ none))

/-- What a copy that fails has put under the name of the target. -/
def Answers.partialCopy (access : Access) (new : Bytes) : Option Bytes :=
  if access = .saf ∧ a.createCopy ≠ .done then none
  else if a.openInput = .done ∧ a.openOutput = .done then
    a.copyStops.map (fun stop => new.take stop.1)
  else if access = .saf then some [] else none

/-- What remains of it. -/
def Answers.leftover (access : Access) (new : Bytes) : Option Bytes :=
  if a.deletePartial = .done then none else a.partialCopy access new

/-- What is under the name of the target, its file deleted, when putting the new one there fails. -/
def Answers.failedReplace (access : Access) (new : Bytes) : Option (Option Bytes) :=
  match a.rename, access with
  | .done, _ => none
  | .raised _, .direct => some none
  | _, _ => if a.copyFails access then some (a.leftover access new) else none

/-- The old file is deleted, and neither version gets under the name of the target. -/
def Answers.vacates (access : Access) (old new : Bytes) : Prop :=
  (∀ e, a.closeTemp ≠ .raised e) ∧ a.deleteExisting = .done ∧
    ∃ left, a.failedReplace access new = some left ∧ left ≠ some old ∧ left ≠ some new

/-- And the temporary file is deleted, too. -/
def Answers.LosesBoth (access : Access) (old new : Bytes) : Prop :=
  a.vacates access old new ∧ a.deleteUncommitted = .done

/-- One of the two versions is still there. -/
def Keeps (h : TempFile) (old new : Bytes) (t : Files) : Prop :=
  contentAt t h.target = some old ∨ contentAt t h.target = some new ∨ contentAt t h.temp = some new

/-- The contents under the two names. -/
def Contents (h : TempFile) (x y : Option Bytes) (t : Files) : Prop :=
  contentAt t h.target = x ∧ contentAt t h.temp = y

section Steps

variable {reads a h} {access : Access} {reply : Reply} {x y : Option Bytes} {t : Files} {old new : Bytes}

theorem Contents.erase_target (hc : Contents h x y t) (hne : h.target ≠ h.temp) :
    Contents h none y (t.erase h.target) := by
  rw [Contents, contentAt_erase, Function.update_self, Function.update_of_ne hne.symm]
  exact ⟨rfl, hc.2⟩

theorem Contents.erase_temp (hc : Contents h x y t) (hne : h.target ≠ h.temp) :
    Contents h x none (t.erase h.temp) := by
  rw [Contents, contentAt_erase, Function.update_self, Function.update_of_ne hne]
  exact ⟨hc.1, rfl⟩

theorem Contents.insert_target (hc : Contents h x y t) (hne : h.target ≠ h.temp) (content : Bytes) :
    Contents h (some content) y (t.insert h.target (.file content)) := by
  rw [Contents, contentAt_insert_file, Function.update_self, Function.update_of_ne hne.symm]
  exact ⟨rfl, hc.2⟩

theorem operation_meets {f : Files → Files} {P : Files → Prop} {Q : Bool → Files → Prop}
    {E : JavaException → Files → Prop} (hdone : reply = .done → ∀ t, P t → Q true (f t))
    (hrefused : reply = .refused → ∀ t, P t → Q false t)
    (hraised : ∀ e, reply = .raised e → ∀ t, P t → E e t) : Meets P (operation reply f) Q E := by
  intro t ht
  cases reply with
  | done => exact hdone rfl t ht
  | refused => exact hrefused rfl t ht
  | raised e => exact hraised e rfl t ht

/-- The copy is whole, or it stops with so many bytes. -/
theorem copyLoop_meets (hne : h.target ≠ h.temp) (stops : Option (Nat × JavaException)) (source written : Bytes) :
    Meets (Contents h (some written) y) (copyLoop reads h stops source)
      (fun _ t => stops = none ∧ Contents h (some (written ++ source)) y t)
      (fun _ t => ∃ stop, stops = some stop ∧ Contents h (some (written ++ source.take stop.1)) y t) := by
  have happend : ∀ {E : JavaException → Files → Prop} (written chunk : Bytes),
      Meets (Contents h (some written) y) (appendTarget h chunk)
      (fun _ => Contents h (some (written ++ chunk)) y) E := by
    intro E written chunk
    refine Meets.update (fun t hc => ?_)
    rw [hc.1]
    exact hc.insert_target hne (written ++ chunk)
  fun_induction copyLoop reads h stops source generalizing written with
  | case1 => exact Meets.pure (fun t hc => ⟨rfl, by rwa [List.append_nil]⟩)
  | case2 n e => exact Meets.raise (fun t hc => ⟨(n, e), rfl, by rwa [List.take_nil, List.append_nil]⟩)
  | case3 source h0 read ih =>
    refine (happend written _).bind (fun _ => ?_)
    refine (ih (written ++ source.take read)).mono (fun _ h => h) (fun _ t ht => ?_) (fun _ t ht => ?_)
    · rwa [List.append_assoc, List.take_append_drop] at ht
    · obtain ⟨stop, hstop, -⟩ := ht
      exact absurd hstop (Option.some_ne_none stop).symm
  | case4 source h0 read n e hlt =>
    exact (happend written _).bind (fun _ => Meets.raise (fun t hc => ⟨(n, e), rfl, hc⟩))
  | case5 source h0 read n e hle ih =>
    refine (happend written _).bind (fun _ => ?_)
    refine (ih (written ++ source.take read)).mono (fun _ h => h) (fun _ t ht => ?_) (fun _ t ht => ?_)
    · exact absurd ht.1 (Option.some_ne_none _)
    · obtain ⟨stop, hstop, hc⟩ := ht
      cases hstop
      refine ⟨(n, e), rfl, ?_⟩
      have hsplit : source.take n = source.take read ++ (source.drop read).take (n - (source.take read).length) := by
        conv_lhs => rw [← List.take_append_drop read source]
        rw [List.take_append, List.take_of_length_le (by omega)]
      rwa [hsplit, ← List.append_assoc]

theorem copyContent_meets (hne : h.target ≠ h.temp) :
    Meets (Contents h (some []) (some new)) (copyContent reads a h)
      (fun _ t => a.copyStops = none ∧ Contents h (some new) (some new) t)
      (fun _ t => ∃ stop, a.copyStops = some stop ∧ Contents h (some (new.take stop.1)) (some new) t) := by
  refine Meets.bind (Q := fun source t => source = new ∧ Contents h (some []) (some new) t)
    (Meets.read (fun t hc => ⟨by rw [hc.2]; rfl, hc⟩)) (fun source => Meets.of_fact fun heq => ?_)
  subst heq
  exact copyLoop_meets hne a.copyStops source []

theorem openEmpty_meets (hne : h.target ≠ h.temp) :
    Meets (Contents h x y) (openEmpty h reply)
      (fun opened t => (opened = true → reply = .done ∧ Contents h (some []) y t) ∧
        (¬ opened = true → reply ≠ .done ∧ Contents h x y t))
      (fun _ t => reply ≠ .done ∧ Contents h x y t) :=
  operation_meets (fun hdone _ hc => ⟨fun _ => ⟨hdone, hc.insert_target hne []⟩, fun hno => absurd rfl hno⟩)
    (fun hrefused _ hc => ⟨fun hyes => absurd hyes Bool.false_ne_true, fun _ => ⟨by rw [hrefused]; simp, hc⟩⟩)
    (fun _ hraised _ hc => ⟨by rw [hraised]; simp, hc⟩)

theorem deletePartial_run (hne : h.target ≠ h.temp) (hc : Contents h (a.partialCopy access new) y t) :
    Contents h (a.leftover access new) y (deleteDocument a.deletePartial h.target t).2 := by
  unfold Answers.leftover deleteDocument
  cases a.deletePartial with
  | done => exact hc.erase_target hne
  | refused => exact hc
  | raised e => exact hc

section Failures

variable (hcreated : access = .saf → a.createCopy = .done)
include hcreated

theorem copy_unopened (hopen : a.openInput ≠ .done ∨ a.openOutput ≠ .done) :
    a.copyFails access ∧ a.partialCopy access new = if access = .saf then some [] else none := by
  have hnot : ¬ (access = .saf ∧ a.createCopy ≠ .done) := fun hc => hc.2 (hcreated hc.1)
  refine ⟨.inr (hopen.imp id .inl), ?_⟩
  rw [Answers.partialCopy, if_neg hnot, if_neg]
  intro hc
  exact hopen.elim (fun hi => hi hc.1) (fun ho => ho hc.2)

variable (hinput : a.openInput = .done) (houtput : a.openOutput = .done)
include hinput houtput

theorem copy_stopped {stop : Nat × JavaException} (hstop : a.copyStops = some stop) :
    a.copyFails access ∧ a.partialCopy access new = some (new.take stop.1) := by
  have hnot : ¬ (access = .saf ∧ a.createCopy ≠ .done) := fun hc => hc.2 (hcreated hc.1)
  refine ⟨.inr (.inr (.inr (by rw [hstop]; exact Option.some_ne_none stop))), ?_⟩
  rw [Answers.partialCopy, if_neg hnot, if_pos ⟨hinput, houtput⟩, hstop, Option.map_some]

theorem copy_succeeds (hstops : a.copyStops = none) : ¬ a.copyFails access := by
  intro hfails
  obtain hc | hc | hc | hc := hfails
  · exact hc.2 (hcreated hc.1)
  · exact hc hinput
  · exact hc houtput
  · exact hc hstops

/-- Copying into the open file. -/
theorem copyOpened_meets (hne : h.target ≠ h.temp) :
    Meets (Contents h (some []) (some new)) (copyContent reads a h)
      (fun _ t => ¬ a.copyFails access ∧ Contents h (some new) (some new) t)
      (fun _ t => a.copyFails access ∧ Contents h (a.partialCopy access new) (some new) t) := by
  refine (copyContent_meets hne).mono (fun _ h => h) (fun _ t ht => ?_) (fun _ t ht => ?_)
  · exact ⟨copy_succeeds hcreated hinput houtput ht.1, ht.2⟩
  · obtain ⟨stop, hstop, hc⟩ := ht
    obtain ⟨hfails, hcopy⟩ : _ ∧ a.partialCopy access new = _ := copy_stopped hcreated hinput houtput hstop
    exact ⟨hfails, by rwa [hcopy]⟩

end Failures

theorem openInput_meets {P : Files → Prop} {E : JavaException → Files → Prop}
    (hfails : a.openInput ≠ .done → ∀ t, P t → ∀ e, E e t) :
    Meets P (operation a.openInput id) (fun input t => (input = true ↔ a.openInput = .done) ∧ P t) E :=
  operation_meets (fun hdone _ ht => ⟨by simp [hdone], ht⟩) (fun hrefused _ ht => ⟨by simp [hrefused], ht⟩)
    (fun e hraised t ht => hfails (by rw [hraised]; simp) t ht e)

theorem copyDirectFile_meets (hne : h.target ≠ h.temp) :
    Meets (Contents h none (some new)) (copyDirectFile reads a h)
      (fun _ t => ¬ a.copyFails .direct ∧ Contents h (some new) (some new) t)
      (fun _ t => a.copyFails .direct ∧ Contents h (a.leftover .direct new) (some new) t) := by
  refine Meets.onRaise (E := fun _ t => a.copyFails .direct ∧ Contents h (a.partialCopy .direct new) (some new) t)
    ?_ (fun e t he => ⟨he.1, deletePartial_run hne he.2⟩)
  have hcreated : Access.direct = .saf → a.createCopy = .done := fun h => Access.noConfusion h
  have hunopened : a.openInput ≠ .done ∨ a.openOutput ≠ .done → ∀ t, Contents h none (some new) t →
      a.copyFails .direct ∧ Contents h (a.partialCopy .direct new) (some new) t := by
    intro hopen t hc
    obtain ⟨hfails, hcopy⟩ : _ ∧ a.partialCopy .direct new = _ := copy_unopened hcreated hopen
    exact ⟨hfails, by rwa [hcopy]⟩
  refine (openInput_meets (fun hi t hc _ => hunopened (.inl hi) t hc)).bind
    (fun input => Meets.of_fact fun hinput => ?_)
  refine Meets.require_bind (fun hi => ?_) (fun hi t hc => hunopened (.inl (mt hinput.mpr hi)) t hc)
  refine ((openEmpty_meets hne).weaken (fun _ t he => hunopened (.inr he.1) t he.2)).bind (fun output => ?_)
  refine Meets.require_bind (fun ho => ?_) (fun ho t hc => ?_)
  · refine Meets.mono ?_ (fun t hc => hc.1 ho) (fun _ _ h => h) (fun _ _ h => h)
    exact Meets.of_fact fun houtput => copyOpened_meets hcreated (hinput.mp hi) houtput hne
  · obtain ⟨houtput, hc⟩ := hc.2 ho
    exact hunopened (.inr houtput) t hc

theorem copyDocument_meets (hne : h.target ≠ h.temp) :
    Meets (Contents h none (some new)) (copyDocument reads a h)
      (fun _ t => ¬ a.copyFails .saf ∧ Contents h (some new) (some new) t)
      (fun _ t => a.copyFails .saf ∧ Contents h (a.leftover .saf new) (some new) t) := by
  have huncreated : a.createCopy ≠ .done → ∀ t, Contents h none (some new) t →
      a.copyFails .saf ∧ Contents h (a.leftover .saf new) (some new) t := by
    intro hcreate t hc
    have hcopy : a.partialCopy .saf new = none := if_pos ⟨rfl, hcreate⟩
    refine ⟨.inl ⟨rfl, hcreate⟩, ?_⟩
    rw [Answers.leftover, hcopy, ite_self]
    exact hc
  refine ((openEmpty_meets hne).weaken (fun _ t he => huncreated he.1 t he.2)).bind (fun created => ?_)
  refine Meets.require_bind (fun hyes => ?_) (fun hno t hc => ?_)
  · refine Meets.mono ?_ (fun t hc => hc.1 hyes) (fun _ _ h => h) (fun _ _ h => h)
    refine Meets.of_fact fun hcreate => ?_
    refine Meets.onRaise (E := fun _ t => a.copyFails .saf ∧ Contents h (a.partialCopy .saf new) (some new) t)
      ?_ (fun e t he => ⟨he.1, deletePartial_run hne he.2⟩)
    have hcreated : Access.saf = .saf → a.createCopy = .done := fun _ => hcreate
    have hunopened : a.openInput ≠ .done ∨ a.openOutput ≠ .done → ∀ t, Contents h (some []) (some new) t →
        a.copyFails .saf ∧ Contents h (a.partialCopy .saf new) (some new) t := by
      intro hopen t hc
      obtain ⟨hfails, hcopy⟩ : _ ∧ a.partialCopy .saf new = _ := copy_unopened hcreated hopen
      exact ⟨hfails, by rwa [hcopy]⟩
    refine (openInput_meets (fun hi t hc _ => hunopened (.inl hi) t hc)).bind
      (fun input => Meets.of_fact fun hinput => ?_)
    refine ((openEmpty_meets hne).weaken (fun _ t he => hunopened (.inr he.1) t he.2)).bind (fun output => ?_)
    refine Meets.require_bind (fun hopen => ?_) (fun hopen t hc => ?_)
    · refine Meets.mono ?_ (fun t hc => hc.1 hopen.2) (fun _ _ h => h) (fun _ _ h => h)
      exact Meets.of_fact fun houtput => copyOpened_meets hcreated (hinput.mp hopen.1) houtput hne
    · by_cases ho : output = true
      · exact hunopened (.inl (mt hinput.mpr (fun hi => hopen ⟨hi, ho⟩))) t (hc.1 ho).2
      · exact hunopened (.inr (hc.2 ho).1) t (hc.2 ho).2
  · obtain ⟨hcreate, hc⟩ := hc.2 hno
    exact huncreated hcreate t hc

theorem deleteTemp_meets (hne : h.target ≠ h.temp) (reply : Reply) :
    Meets (Contents h x (some new)) (do let _ ← deleteDocument reply h.temp; return ())
      (fun _ t => contentAt t h.target = x) (fun _ t => Contents h x (some new) t) := by
  refine Meets.bind (Q := fun _ t => contentAt t h.target = x) ?_ (fun _ => Meets.pure (fun _ hc => hc))
  exact operation_meets (fun _ _ hc => (hc.erase_temp hne).1) (fun _ _ hc => hc.1) (fun _ _ _ hc => hc)

def Replaced (a : Answers) (access : Access) (h : TempFile) (new : Bytes) (t : Files) : Prop :=
  contentAt t h.target = some new ∧ a.failedReplace access new = none

/-- The temporary file is still there; it may have been copied. -/
def Raised (a : Answers) (access : Access) (h : TempFile) (new : Bytes) (t : Files) : Prop :=
  ∃ left, Contents h left (some new) t ∧
    (a.failedReplace access new = some left ∨ a.failedReplace access new = none ∧ left = some new)

theorem copyOver_meets (hne : h.target ≠ h.temp) {copy : Effect JavaException Files Unit}
    (hcopy : Meets (Contents h none (some new)) copy
      (fun _ t => ¬ a.copyFails access ∧ Contents h (some new) (some new) t)
      (fun _ t => a.copyFails access ∧ Contents h (a.leftover access new) (some new) t))
    (hreplace : a.failedReplace access new = if a.copyFails access then some (a.leftover access new) else none) :
    Meets (Contents h none (some new)) (do copy; let _ ← deleteDocument a.deleteTemp h.temp; return ())
      (fun _ => Replaced a access h new) (fun _ => Raised a access h new) := by
  refine (hcopy.weaken (fun _ t he => ?_)).bind
    (fun _ => Meets.of_fact fun hfails => ?_)
  · exact ⟨a.leftover access new, he.2, .inl (by rw [hreplace, if_pos he.1])⟩
  · have hnone : a.failedReplace access new = none := by rw [hreplace, if_neg hfails]
    exact (deleteTemp_meets hne a.deleteTemp).mono (fun _ hc => hc) (fun _ _ hc => ⟨hc, hnone⟩)
      (fun _ _ hc => ⟨some new, hc, .inr ⟨hnone, rfl⟩⟩)

theorem renamed_target (hne : h.target ≠ h.temp) (hc : Contents h none (some new) t) :
    contentAt ((t.erase h.temp).insert h.target (.file ((contentAt t h.temp).getD []))) h.target = some new := by
  rw [hc.2]
  exact ((hc.erase_temp hne).insert_target hne new).1

theorem renameOrCopyFile_meets (hne : h.target ≠ h.temp) :
    Meets (Contents h none (some new)) (renameOrCopyFile reads a h)
      (fun _ => Replaced a .direct h new) (fun _ => Raised a .direct h new) := by
  refine Meets.bind (Q := fun renamed t => (renamed = true → Replaced a .direct h new t) ∧
      (¬ renamed = true → a.rename = .refused ∧ Contents h none (some new) t))
    (operation_meets (fun hdone t hc => ⟨fun _ => ⟨renamed_target hne hc, ?_⟩, fun hno => absurd rfl hno⟩)
      (fun hrefused t hc => ⟨fun hyes => absurd hyes Bool.false_ne_true, fun _ => ⟨hrefused, hc⟩⟩)
      (fun e hraised t hc => ⟨none, hc, .inl ?_⟩)) (fun renamed => ?_)
  · simp only [Answers.failedReplace, hdone]
  · simp only [Answers.failedReplace, hraised]
  · refine Meets.ite (fun hyes => Meets.pure (fun t hc => hc.1 hyes)) (fun hno => ?_)
    refine Meets.mono ?_ (fun t hc => hc.2 hno) (fun _ _ h => h) (fun _ _ h => h)
    refine Meets.of_fact fun hrefused => copyOver_meets hne (copyDirectFile_meets hne) ?_
    simp only [Answers.failedReplace, hrefused]

theorem renameOrCopyDocument_meets (hne : h.target ≠ h.temp) :
    Meets (Contents h none (some new)) (renameOrCopyDocument reads a h)
      (fun _ => Replaced a .saf h new) (fun _ => Raised a .saf h new) := by
  refine Meets.bind (Q := fun renamed t => (renamed = true → Replaced a .saf h new t) ∧
      (¬ renamed = true → a.rename ≠ .done ∧ Contents h none (some new) t)) ?_ (fun renamed => ?_)
  · intro t hc
    unfold ignoring renameDocument operation
    cases hrename : a.rename with
    | done =>
      refine ⟨fun _ => ⟨renamed_target hne hc, ?_⟩, fun hno => absurd rfl hno⟩
      simp only [Answers.failedReplace, hrename]
    | refused => exact ⟨fun hyes => absurd hyes Bool.false_ne_true, fun _ => ⟨by simp, hc⟩⟩
    | raised e => exact ⟨fun hyes => absurd hyes Bool.false_ne_true, fun _ => ⟨by simp, hc⟩⟩
  · refine Meets.ite (fun hyes => Meets.pure (fun t hc => hc.1 hyes)) (fun hno => ?_)
    refine Meets.mono ?_ (fun t hc => hc.2 hno) (fun _ _ h => h) (fun _ _ h => h)
    refine Meets.of_fact fun hrename => copyOver_meets hne (copyDocument_meets hne) ?_
    unfold Answers.failedReplace
    split
    · next hdone => exact absurd hdone hrename
    · next hcontra => exact Access.noConfusion hcontra
    · rfl

/-- The end of a replacement that raised, before the temporary file is removed. -/
def Stopped (a : Answers) (access : Access) (h : TempFile) (old new : Bytes) (t : Files) : Prop :=
  ∃ left, Contents h left (some new) t ∧ (a.vacates access old new ↔ left ≠ some old ∧ left ≠ some new)

theorem stopped_old (hc : Contents h (some old) (some new) t) (hnot : ¬ a.vacates access old new) :
    Stopped a access h old new t :=
  ⟨some old, hc, iff_of_false hnot (fun hleft => hleft.1 rfl)⟩

theorem stopped_raised (hclosed : ∀ e, a.closeTemp ≠ .raised e) (hdeleted : a.deleteExisting = .done)
    (hraised : Raised a access h new t) : Stopped a access h old new t := by
  obtain ⟨left, hc, hleft | ⟨hnone, rfl⟩⟩ := hraised
  · refine ⟨left, hc, fun hv => ?_, fun hne => ⟨hclosed, hdeleted, left, hleft, hne⟩⟩
    obtain ⟨-, -, other, hother, hne⟩ := hv
    rw [hleft, Option.some.injEq] at hother
    rwa [hother]
  · refine ⟨some new, hc, iff_of_false (fun hv => ?_) (fun hleft => hleft.2 rfl)⟩
    obtain ⟨-, -, other, hother, -⟩ := hv
    exact absurd (hnone.symm.trans hother) (Option.some_ne_none other).symm

theorem not_vacates (hnone : a.failedReplace access new = none) : ¬ a.vacates access old new := by
  intro hv
  obtain ⟨-, -, left, hleft, -⟩ := hv
  exact absurd (hnone.symm.trans hleft) (Option.some_ne_none left).symm

/-- Closing, deleting and replacing, whichever way the last goes. -/
theorem publish_steps (hne : h.target ≠ h.temp) {replace : Effect JavaException Files Unit}
    (hreplace : Meets (Contents h none (some new)) replace
      (fun _ => Replaced a access h new) (fun _ => Raised a access h new)) :
    Meets (Contents h (some old) (some new))
      (do closeTemp a
          let deleted ← deleteDocument a.deleteExisting h.target
          require deleted (replaceError h)
          replace)
      (fun _ t => contentAt t h.target = some new ∧ ¬ a.vacates access old new)
      (fun _ => Stopped a access h old new) := by
  have hclose : Meets (Contents h (some old) (some new)) (closeTemp a)
      (fun _ t => (∀ e, a.closeTemp ≠ .raised e) ∧ Contents h (some old) (some new) t)
      (fun _ => Stopped a access h old new) := by
    refine Meets.bind (Q := fun _ t => (∀ e, a.closeTemp ≠ .raised e) ∧ Contents h (some old) (some new) t)
      ?_ (fun _ => Meets.pure (fun _ hc => hc))
    refine operation_meets (fun hdone _ hc => ⟨by simp [hdone], hc⟩) (fun hrefused _ hc => ⟨by simp [hrefused], hc⟩)
      (fun e hraised _ hc => stopped_old hc (fun hv => hv.1 e hraised))
  refine hclose.bind (fun _ => Meets.of_fact fun hclosed => ?_)
  refine Meets.bind (Q := fun deleted t => (deleted = true → a.deleteExisting = .done ∧
      Contents h none (some new) t) ∧ (¬ deleted = true → Stopped a access h old new t))
    (operation_meets (fun hdone _ hc => ⟨fun _ => ⟨hdone, hc.erase_target hne⟩, fun hno => absurd rfl hno⟩)
      (fun hrefused _ hc => ⟨fun hyes => absurd hyes Bool.false_ne_true, fun _ => stopped_old hc (fun hv => ?_)⟩)
      (fun e hraised _ hc => stopped_old hc (fun hv => ?_))) (fun deleted => ?_)
  · exact absurd (hrefused.symm.trans hv.2.1) (by simp)
  · exact absurd (hraised.symm.trans hv.2.1) (by simp)
  · refine Meets.require_bind (fun hyes => ?_) (fun hno t hc => hc.2 hno)
    refine Meets.mono ?_ (fun t hc => hc.1 hyes) (fun _ _ h => h) (fun _ _ h => h)
    refine Meets.of_fact fun hdeleted => hreplace.mono (fun _ h => h) (fun _ _ hr => ?_) (fun _ _ hr => ?_)
    · exact ⟨hr.1, not_vacates hr.2⟩
    · exact stopped_raised hclosed hdeleted hr

theorem closeTemp_run (t : Files) :
    closeTemp a t = (.ok (), t) ∨ ∃ e, closeTemp a t = (.error e, t) := by
  unfold closeTemp operation
  cases a.closeTemp with
  | done => exact .inl rfl
  | refused => exact .inl rfl
  | raised e => exact .inr ⟨e, rfl⟩

theorem publish_meets (hne : h.target ≠ h.temp) (hexisting : access = .saf → h.existing = true) :
    Meets (Contents h (some old) (some new)) (publish reads a h access)
      (fun _ t => contentAt t h.target = some new ∧ ¬ a.vacates access old new)
      (fun _ => Stopped a access h old new) := by
  cases access with
  | saf =>
    unfold publish publishSaf
    rw [hexisting rfl]
    exact publish_steps hne (renameOrCopyDocument_meets hne)
  | direct =>
    intro t hc
    have hthere : (t.lookup h.target).isSome = true := by
      cases hl : t.lookup h.target with
      | none => exact absurd ((contentAt_of_lookup_none hl).symm.trans hc.1) (Option.some_ne_none old).symm
      | some node => rfl
    have hsame : publishDirect reads a h t = (do
        closeTemp a
        let deleted ← deleteDocument a.deleteExisting h.target
        require deleted (replaceError h)
        renameOrCopyFile reads a h) t := by
      have hread : ∀ f : Bool → Effect JavaException Files Unit,
          (read (fun t => (t.lookup h.target).isSome) >>= f) t = f true t := fun f => by
        rw [bind_ok (read_run _ t), hthere]
      obtain hrun | ⟨e, hrun⟩ := closeTemp_run (a := a) t
      · rw [publishDirect, bind_ok hrun, hread, bind_ok hrun]
        rfl
      · rw [publishDirect, bind_error hrun, bind_error hrun]
    change Outcome _ _ (publishDirect reads a h t)
    rw [hsame]
    exact publish_steps hne (renameOrCopyFile_meets hne) t hc

theorem discard_run (hne : h.target ≠ h.temp) (hc : Contents h x y t) :
    Contents h x (if a.deleteUncommitted = .done then none else y) (discard a h t).2 := by
  unfold discard deleteDocument operation
  cases a.deleteUncommitted with
  | done => exact hc.erase_temp hne
  | refused => exact hc
  | raised e => exact hc

/-- What happens to the two versions once the payload has been checked. -/
theorem commit_keeps_iff (hne : h.target ≠ h.temp) (hexisting : access = .saf → h.existing = true)
    (hc : Contents h (some old) (some new) t) :
    Keeps h old new (onRaise (publish reads a h access) (discard a h) t).2 ↔ ¬ a.LosesBoth access old new := by
  have hmeets : Meets (Contents h (some old) (some new)) (onRaise (publish reads a h access) (discard a h))
      (fun _ t => Keeps h old new t ↔ ¬ a.LosesBoth access old new)
      (fun _ t => Keeps h old new t ↔ ¬ a.LosesBoth access old new) := by
    refine Meets.onRaise ((publish_meets hne hexisting).mono (fun _ h => h) (fun _ t ht => ?_) (fun _ _ h => h))
      (fun _ t ht => ?_)
    · exact iff_of_true (.inr (.inl ht.1)) (fun hl => ht.2 hl.1)
    · obtain ⟨left, hleft, hiff⟩ := ht
      obtain ⟨htarget, htemp⟩ := discard_run (a := a) hne hleft
      rw [Keeps, htarget, htemp, Answers.LosesBoth, hiff]
      by_cases hdone : a.deleteUncommitted = .done
      · rw [if_pos hdone]
        simp only [hdone]
        tauto
      · rw [if_neg hdone]
        simp [hdone]
  have ho := hmeets t hc
  cases hrun : onRaise (publish reads a h access) (discard a h) t with
  | mk r u =>
    rw [hrun] at ho
    cases r with
    | ok _ => exact ho
    | error _ => exact ho

end Steps

section Runs

variable {reads a} {c : Crypto} {names : FreshNames Text Bytes} {access : Access} {path : Text} {n : Nat}
  {key : Bytes} {s s₂ : Session Files} {temp : TempFile} {t : Files} {old : Bytes}

/-- The temporary file holds a payload that has passed its checks, and the target the old file. -/
theorem received_contents (hn : n < 2 ^ 63) (hold : contentAt s.storage (pathComponents path) = some old)
    (hcreate : (answering reads a names access).createTemp path s.storage = (.ok temp, t))
    (hpayload : receiveVerifiedPayload c reads path n key ((answering reads a names access).write temp)
      { s with storage := t } = (.ok (), s₂)) :
    ∃ p : Payload, (p.content.length = n ∧ c.sha256 p.content = p.digest ∧
        c.hmac key (utf8 path ++ [0] ++ bigEndian 8 n ++ p.content) = p.authenticator) ∧
      Contents temp (some old) (some p.content) s₂.storage ∧ temp.target = pathComponents path ∧
      temp.target ≠ temp.temp ∧ (access = .saf → temp.existing = true) := by
  have hstores := storageOf_stores names true access (contentAt s.storage)
  have hwriting : Writing (contentAt s.storage) [] temp path [] t := by
    have h := hstores.createTemp [] path s.storage rfl
    rwa [show (storageOf names true access).createTemp path s.storage = (.ok temp, t) from hcreate] at h
  have hstart : At s.input [] (Writing (contentAt s.storage) [] temp path []) { s with storage := t } :=
    ⟨rfl, hwriting⟩
  have hpaid : Outcome _ _ (receiveVerifiedPayload c reads path n key ((storageOf names true access).write temp)
      { s with storage := t }) := receiveVerifiedPayload_meets hstores temp path hn _ hstart
  rw [show receiveVerifiedPayload c reads path n key ((storageOf names true access).write temp)
    { s with storage := t } = (.ok (), s₂) from hpayload] at hpaid
  obtain ⟨p, hp, -, hpaid⟩ := hpaid
  have htarget : contentAt s₂.storage temp.target = some old := by
    rw [hpaid.view, Function.update_of_ne hpaid.ne, hpaid.target]
    exact hold
  refine ⟨p, hp, ⟨htarget, hpaid.temp_content⟩, hpaid.target, hpaid.ne, fun _ => ?_⟩
  rw [← Bool.not_eq_false]
  intro hexisting
  rw [contentAt_of_lookup_none (hpaid.vacant hexisting)] at htarget
  exact Option.some_ne_none old htarget.symm

theorem receiveInto_commits
    (hcreate : (answering reads a names access).createTemp path s.storage = (.ok temp, t))
    (hpayload : receiveVerifiedPayload c reads path n key ((answering reads a names access).write temp)
      { s with storage := t } = (.ok (), s₂)) :
    (receiveInto c reads (answering reads a names access) path n key s).2.storage =
      (onRaise (publish reads a temp access) (discard a temp) s₂.storage).2 := by
  rw [receiveInto, onStorage, bind_ok (within_ok hcreate), onRaise, bind_ok hpayload, onRaise]
  have hpublish : (answering reads a names access).publish temp = publish reads a temp access := rfl
  have hdiscard : (answering reads a names access).discard temp = discard a temp := rfl
  unfold onStorage within
  rw [hpublish, hdiscard]
  cases publish reads a temp access s₂.storage with
  | mk r u => cases r <;> rfl

/-- Replacing a file keeps one of its two versions unless the old file is deleted, the new one gets
neither by renaming nor by copying under the name, and the temporary file is deleted. -/
theorem receiveInto_keeps_iff (hn : n < 2 ^ 63) (hold : contentAt s.storage (pathComponents path) = some old)
    (hcreate : (answering reads a names access).createTemp path s.storage = (.ok temp, t))
    (hpayload : receiveVerifiedPayload c reads path n key ((answering reads a names access).write temp)
      { s with storage := t } = (.ok (), s₂)) :
    ∃ p : Payload, (p.content.length = n ∧ c.sha256 p.content = p.digest ∧
        c.hmac key (utf8 path ++ [0] ++ bigEndian 8 n ++ p.content) = p.authenticator) ∧
      temp.target = pathComponents path ∧
      (Keeps temp old p.content (receiveInto c reads (answering reads a names access) path n key s).2.storage ↔
        ¬ a.LosesBoth access old p.content) := by
  obtain ⟨p, hp, hc, htarget, hne, hexisting⟩ := received_contents hn hold hcreate hpayload
  refine ⟨p, hp, htarget, ?_⟩
  rw [receiveInto_commits hcreate hpayload]
  exact commit_keeps_iff hne hexisting hc

end Runs

/-- Everything works but the renaming and the copying. -/
def losingAnswers : Answers :=
  ⟨.done, .done, .refused, .done, .done, .done, some (0, ⟨.io, []⟩), .done, .done, .done⟩

/-- A storage with the file `a` of one byte. -/
def sampleFiles : Files := Finmap.singleton [['a']] (.file [1])

/-- A new file of one byte with its digest and authenticator. -/
def samplePayload : Payload :=
  ⟨[2], sampleCrypto.sha256 [2], sampleCrypto.hmac [] (utf8 ['a'] ++ [0] ++ bigEndian 8 1 ++ [2])⟩

def sampleSession : Session Files :=
  ⟨samplePayload.content ++ (samplePayload.digest ++ (samplePayload.authenticator ++ [])), [], sampleFiles⟩

def sampleStorage (access : Access) : Storage Files TempFile :=
  answering fullReads losingAnswers (FreshNames.longest Bytes) access

theorem sample_received (access : Access) : ∃ temp t s₂,
    (sampleStorage access).createTemp ['a'] sampleFiles = (.ok temp, t) ∧
      receiveVerifiedPayload sampleCrypto fullReads ['a'] (1 : Nat) [] ((sampleStorage access).write temp)
        { sampleSession with storage := t } = (.ok (), s₂) := by
  obtain ⟨temp, t, hcreate, hempty⟩ : ∃ temp t,
      (sampleStorage access).createTemp ['a'] sampleFiles = (.ok temp, t) ∧ contentAt t temp.temp = some [] := by
    cases access with
    | saf => exact ⟨_, _, rfl, by rw [contentAt, Finmap.lookup_insert]⟩
    | direct => exact ⟨_, _, rfl, by rw [contentAt, Finmap.lookup_insert]⟩
  have hwrites : ∀ written chunk, Meets (fun t => contentAt t temp.temp = some written) (appendTo temp chunk)
      (fun _ t => contentAt t temp.temp = some (written ++ chunk)) (fun _ _ => False) := by
    intro written chunk
    refine Meets.update (fun t ht => ?_)
    rw [ht, contentAt_insert_file, Function.update_self]
    rfl
  have hwrite : (sampleStorage access).write temp = appendTo temp := by cases access <;> rfl
  obtain ⟨u, hrun, -⟩ : ∃ u, receiveVerifiedPayload sampleCrypto fullReads ['a'] (1 : Nat) [] (appendTo temp)
      { sampleSession with storage := t } = (.ok (), u) ∧ True := by
    obtain ⟨u, hrun, -⟩ := receiveVerifiedPayload_run (p := samplePayload) fullReads [] [] hwrites
      (by decide) (rfl : sampleCrypto.sha256 _ = _) rfl hempty
    exact ⟨_, hrun, trivial⟩
  rw [← hwrite] at hrun
  exact ⟨temp, t, u, hcreate, hrun⟩

theorem sample_old : contentAt sampleSession.storage (pathComponents ['a']) = some [1] := by decide

theorem receiveInto_keeps_iff_sample : ∃ temp, ∃ p : Payload,
    (p.content.length = 1 ∧ sampleCrypto.sha256 p.content = p.digest ∧
        sampleCrypto.hmac [] (utf8 ['a'] ++ [0] ++ bigEndian 8 1 ++ p.content) = p.authenticator) ∧
      temp.target = pathComponents ['a'] ∧
      (Keeps temp [1] p.content
          (receiveInto sampleCrypto fullReads (sampleStorage .saf) ['a'] (1 : Nat) [] sampleSession).2.storage ↔
        ¬ losingAnswers.LosesBoth .saf [1] p.content) := by
  obtain ⟨temp, t, s₂, hcreate, hpayload⟩ := sample_received .saf
  exact ⟨temp, receiveInto_keeps_iff (by decide) sample_old hcreate hpayload⟩

/-- Both the old and the new content are gone. -/
def LostSample (access : Access) : Prop :=
  contentAt sampleFiles [['a']] = some [1] ∧ ∃ temp t s₂,
    (sampleStorage access).createTemp ['a'] sampleFiles = (.ok temp, t) ∧
      receiveVerifiedPayload sampleCrypto fullReads ['a'] (1 : Nat) [] ((sampleStorage access).write temp)
        { sampleSession with storage := t } = (.ok (), s₂) ∧
      ∃ new, contentAt s₂.storage temp.temp = some new ∧ ¬ Keeps temp [1] new
        (receiveInto sampleCrypto fullReads (sampleStorage access) ['a'] (1 : Nat) [] sampleSession).2.storage

theorem both_versions_lost : LostSample .saf ∧ LostSample .direct := by
  have hlost : ∀ access, LostSample access := by
    intro access
    obtain ⟨temp, t, s₂, hcreate, hpayload⟩ := sample_received access
    obtain ⟨p, hp, hc, -, hne, hexisting⟩ := received_contents (by decide) sample_old hcreate hpayload
    refine ⟨sample_old, temp, t, s₂, hcreate, hpayload, p.content, hc.2, ?_⟩
    have hcommits : (receiveInto sampleCrypto fullReads (sampleStorage access) ['a'] (1 : Nat) []
        sampleSession).2.storage = _ := receiveInto_commits hcreate hpayload
    rw [hcommits, commit_keeps_iff hne hexisting hc, not_not]
    refine ⟨⟨fun e => Reply.noConfusion, rfl, none, ?_, by simp, by simp⟩, rfl⟩
    cases access <;> rfl
  exact ⟨hlost .saf, hlost .direct⟩

end OpenAdb.P2p.Replacement

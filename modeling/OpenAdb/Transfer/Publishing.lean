import OpenAdb.Transfer.StreamPush

namespace OpenAdb.Transfer.Publishing

open OpenAdb.Lib.PyText OpenAdb.Lib.Encoding OpenAdb.Lib.Effects OpenAdb.Lib.EventLog
open OpenAdb.Commands.Results (CommandResult)
open OpenAdb.Transfer.StreamPush

variable {ε : Type}

section Scripts

variable (g : Staging)

theorem head_append {s : Text} {a : Char} (h : s.head? = some a) (x : Text) : (s ++ x).head? = some a := by
  rw [List.head?_append, h, Option.some_or]

theorem sizeVerification_head (expectedSize : Nat) : (sizeVerification expectedSize).head? = some 'e' := by
  have hstart : "expected=\"".toList.head? = some 'e' := by decide +kernel
  exact head_append (head_append hstart _) _

/-- What a script does with the two paths. -/
def Does (script : Text) (a : Char) : Prop := ∃ body, script = paths g.target g.temp ++ body ∧ body.head? = some a

variable {g}

theorem Does.append {script : Text} {a : Char} (h : Does g script a) (x : Text) : Does g (script ++ x) a := by
  obtain ⟨body, rfl, hbody⟩ := h
  exact ⟨body ++ x, List.append_assoc _ _ _, head_append hbody x⟩

theorem Does.ne {script script' : Text} {a b : Char} (h : Does g script a) (h' : Does g script' b) (hab : a ≠ b) :
    script ≠ script' := by
  obtain ⟨body, rfl, hbody⟩ := h
  obtain ⟨body', rfl, hbody'⟩ := h'
  intro heq
  rw [List.append_cancel_left heq, hbody'] at hbody
  exact hab (Option.some.inj hbody).symm

theorem finalizeScript_does : Does g (finalizeScript g.target g.temp g.size true) 'p' ∧
    Does g (finalizeScript g.target g.temp g.size false) 'e' := by
  constructor
  · rw [finalizeScript, if_pos rfl]
    refine Does.append (Does.append (Does.append ⟨_, rfl, ?_⟩ _) _) _
    decide +kernel
  · rw [finalizeScript, if_neg (by decide)]
    exact Does.append (Does.append ⟨_, rfl, sizeVerification_head _⟩ _) _

theorem verifyScript_does : Does g (verifyScript g.target g.temp g.size) '[' := by
  refine Does.append (Does.append ⟨_, rfl, ?_⟩ _) _
  decide +kernel

theorem finalizeScript_ne_verifyScript : finalizeScript g.target g.temp g.size g.useRoot ≠
    verifyScript g.target g.temp g.size := by
  cases g.useRoot with
  | true => exact finalizeScript_does.1.ne verifyScript_does (by decide)
  | false => exact finalizeScript_does.2.ne verifyScript_does (by decide)

theorem finalizeScript_ne_cleanupScript : finalizeScript g.target g.temp g.size g.useRoot ≠
    cleanupScript g.temp := by
  rw [finalizeScript]
  cases g.useRoot with
  | true =>
    intro h
    cases h
  | false =>
    intro h
    cases h

theorem verifyScript_ne_cleanupScript : verifyScript g.target g.temp g.size ≠ cleanupScript g.temp := by
  intro h
  cases h

end Scripts

section Establishing

variable {g : Staging} {log : Log ε} {e : Event ε}

theorem accepted_cons_iff : Accepted g (e :: log) ↔
    Accepted g log ∨ e = .cancelled false ∧ ∃ e' past, log = e' :: past ∧ e'.verifies g := by
  constructor
  · intro h
    obtain ⟨later, past, e', hlog, hverifies⟩ := h
    cases later with
    | nil =>
      rw [List.nil_append, List.cons.injEq] at hlog
      exact .inr ⟨hlog.1, e', past, hlog.2, hverifies⟩
    | cons e'' later =>
      rw [List.cons_append, List.cons.injEq] at hlog
      exact .inl ⟨later, past, e', hlog.2, hverifies⟩
  · intro h
    obtain ⟨later, past, e', rfl, hverifies⟩ | ⟨rfl, e', past, rfl, hverifies⟩ := h
    · exact ⟨e :: later, past, e', rfl, hverifies⟩
    · exact ⟨[], past, e', rfl, hverifies⟩

theorem established_cons_iff (hpublishes : ¬e.publishes g) (hcancelled : e ≠ .cancelled false) :
    Established g (e :: log) ↔ Established g log := by
  rw [Established, Established, accepted_cons_iff, List.exists_mem_cons_iff]
  constructor
  · intro h
    obtain (hpub | hlog) | haccepted | hnew := h
    · exact absurd hpub hpublishes
    · exact .inl hlog
    · exact .inr haccepted
    · exact absurd hnew.1 hcancelled
  · intro h
    exact h.imp .inr .inl

theorem established_cancelled_iff {set : Bool} (h : ∀ e ∈ log, ¬e.isVerification g) :
    Established g (.cancelled set :: log) ↔ Established g log := by
  rw [Established, Established, accepted_cons_iff, List.exists_mem_cons_iff]
  constructor
  · intro h'
    obtain (hpub | hlog) | haccepted | ⟨-, e, past, rfl, hverifies⟩ := h'
    · exact hpub.elim
    · exact .inl hlog
    · exact .inr haccepted
    · refine absurd ?_ (h e List.mem_cons_self)
      cases e with
      | adb route script watched reply =>
        cases reply with
        | ok result => exact hverifies.1
        | error _ => exact hverifies.elim
      | _ => exact hverifies.elim
  · intro h'
    exact h'.imp .inr .inl

theorem not_established (h : ∀ e ∈ log, ¬e.isAdb) : ¬Established g log := by
  intro hestablished
  have hnone : ∀ e : Event ε, e ∈ log → ¬e.publishes g ∧ ¬e.verifies g := by
    intro e hmem
    have hadb := h e hmem
    cases e with
    | adb route script watched reply => exact absurd trivial hadb
    | _ => exact ⟨id, id⟩
  obtain ⟨e, hmem, hpublishes⟩ | ⟨later, past, e, rfl, hverifies⟩ := hestablished
  · exact (hnone e hmem).1 hpublishes
  · refine (hnone e (List.mem_append_right _ ?_)).2 hverifies
    exact List.mem_cons_of_mem _ List.mem_cons_self

end Establishing

section Steps

variable {α : Type} {w : World ε} {P : State ε → Prop} {Q : α → State ε → Prop} {E : Raised ε → State ε → Prop}

theorem asks_meets {answer : Log ε → Except (Raised ε) α} {event : Except (Raised ε) α → Event ε}
    (hok : ∀ s a, P s → Q a { s with log := event (.ok a) :: s.log })
    (herr : ∀ s e, P s → E e { s with log := event (.error e) :: s.log }) : Meets P (asks answer event) Q E := by
  intro s hs
  rw [asks, within, ask]
  cases answer s.log with
  | ok a => exact hok s a hs
  | error e => exact herr s e hs

theorem asks_ok {answer : Log ε → Except (Raised ε) α} {event : Except (Raised ε) α → Event ε} {s : State ε}
    {a : α} (h : answer s.log = .ok a) :
    asks answer event s = (.ok a, { s with log := event (.ok a) :: s.log }) := by
  rw [asks, within, ask, h]

theorem asks_error {answer : Log ε → Except (Raised ε) α} {event : Except (Raised ε) α → Event ε} {s : State ε}
    {e : Raised ε} (h : answer s.log = .error e) :
    asks answer event s = (.error e, { s with log := event (.error e) :: s.log }) := by
  rw [asks, within, ask, h]

theorem cancelled_meets {Q : Bool → State ε → Prop}
    (h : ∀ s set, P s → Q set { s with log := .cancelled set :: s.log }) : Meets P (cancelled w) Q E :=
  fun s hs => h s (w.isSet s.log) hs

end Steps

section Writing

variable {w : World ε}

/-- Before the file is moved: no other command was run. -/
structure Quiet (s : State ε) : Prop where
  noAdb : ∀ e ∈ s.log, ¬e.isAdb
  uncommitted : s.committed = false
  count : s.sentBytes = (writtenBytes s.log).length

/-- What the stream, the source and its fingerprints have shown. -/
def view (log : Log ε) : Bytes × Bytes × List Fingerprint := (writtenBytes log, readBytes log, fingerprints log)

def Sees (v : Bytes × Bytes × List Fingerprint) (s : State ε) : Prop := Quiet s ∧ view s.log = v

theorem Quiet.push {s : State ε} {e : Event ε} (h : Quiet s) (hadb : ¬e.isAdb)
    (hwritten : writtenBytes (e :: s.log) = writtenBytes s.log) : Quiet { s with log := e :: s.log } where
  noAdb := List.forall_mem_cons.mpr ⟨hadb, h.noAdb⟩
  uncommitted := h.uncommitted
  count := by
    rw [hwritten]
    exact h.count

theorem Sees.push {s : State ε} {e : Event ε} {v : Bytes × Bytes × List Fingerprint} (h : Sees v s)
    (hadb : ¬e.isAdb) (hview : view (e :: s.log) = view s.log) : Sees v { s with log := e :: s.log } :=
  ⟨h.1.push hadb (congrArg Prod.fst hview), hview.trans h.2⟩

variable {v : Bytes × Bytes × List Fingerprint} {P : State ε → Prop}

/-- An answer that shows nothing of the stream or of the source. -/
theorem asks_sees {α : Type} {answer : Log ε → Except (Raised ε) α} {event : Except (Raised ε) α → Event ε}
    (hadb : ∀ reply, ¬(event reply).isAdb) (hview : ∀ reply log, view (event reply :: log) = view log) :
    Meets (Sees v) (asks answer event) (fun _ => Sees v) (fun _ => Sees v) :=
  asks_meets (fun _ _ h => h.push (hadb _) (hview _ _)) (fun _ _ h => h.push (hadb _) (hview _ _))

theorem raiseIfCancelled_sees : Meets (Sees v) (raiseIfCancelled w) (fun _ => Sees v) (fun _ => Sees v) := by
  refine Meets.bind (cancelled_meets (Q := fun _ => Sees v) fun s set h => h.push id rfl) fun stop => ?_
  exact Meets.require (fun _ _ h => h) (fun _ _ h => h)

theorem emitProgress_sees {force : Bool} : Meets (Sees v) (emitProgress w force) (fun _ => Sees v)
    (fun _ => Sees v) := by
  refine Meets.bind (Q := fun _ => Sees v) (Meets.read fun _ h => h) fun due =>
    Meets.ite (fun _ => ?_) (fun _ => ?_)
  · exact asks_sees (fun _ => id) (fun _ _ => rfl)
  · exact Meets.pure fun _ h => h

theorem Sees.quiet {s : State ε} (h : Sees v s) : Quiet s := h.1

section Parts

variable {a b : Bytes} {list : List Fingerprint} {s : State ε}

theorem Sees.written (h : Sees (a, b, list) s) : writtenBytes s.log = a := congrArg Prod.fst h.2

theorem Sees.bytes (h : Sees (a, b, list) s) : readBytes s.log = b := congrArg (fun v => v.2.1) h.2

theorem Sees.shown (h : Sees (a, b, list) s) : fingerprints s.log = list := congrArg (fun v => v.2.2) h.2

end Parts

/-- A writer that raises leaves the stream as it is. -/
theorem quietly {x : Procedure ε Unit} {Q : Unit → State ε → Prop} (h : Meets P x Q (fun _ => Sees v)) :
    Meets P x Q (fun _ => Quiet) :=
  h.weaken fun _ _ => Sees.quiet

theorem sendSome_sees {shown : List Fingerprint} {pending written : Bytes} :
    Meets (Sees (written, written ++ pending, shown)) (sendSome w pending)
      (fun n => Sees (written ++ pending.take n.val, written ++ pending, shown)) (fun _ => Quiet) := by
  refine Meets.bind (quietly raiseIfCancelled_sees) fun _ => ?_
  intro s h
  have hlength : s.sentBytes = written.length := by
    rw [h.1.count, h.written]
  rw [writeStream]
  cases hreply : w.write s.log pending with
  | error e =>
    rw [bind_error (asks_error hreply)]
    exact (h.push id rfl).quiet
  | ok reply =>
    rw [bind_ok (asks_ok hreply)]
    cases reply with
    | none => exact (h.push (e := .write pending (.ok none)) id rfl).quiet
    | some taken =>
      obtain ⟨n, hle⟩ := taken
      cases n with
      | zero =>
        refine (h.push (e := .write pending (.ok (some 0))) id ?_).quiet
        rw [view, view]
        exact congrArg (fun bytes => (bytes, _)) (List.append_nil _)
      | succ n =>
        refine ⟨⟨List.forall_mem_cons.mpr ⟨id, h.1.noAdb⟩, h.1.uncommitted, ?_⟩, ?_⟩
        · change s.sentBytes + (n + 1) = (writtenBytes s.log ++ pending.take (n + 1)).length
          rw [h.written, hlength, List.length_append, List.length_take, Nat.min_eq_left hle]
        · change (writtenBytes s.log ++ pending.take (n + 1), readBytes s.log, fingerprints s.log) = _
          rw [h.written, h.bytes, h.shown]

theorem sendPending_sees {shown : List Fingerprint} (pending written : Bytes) :
    Meets (Sees (written, written ++ pending, shown)) (sendPending w pending)
      (fun _ => Sees (written ++ pending, written ++ pending, shown)) (fun _ => Quiet) := by
  induction hn : pending.length using Nat.strong_induction_on generalizing pending written with
  | _ n ih =>
    rw [sendPending]
    by_cases hnil : pending = []
    · rw [dif_pos hnil, hnil, List.append_nil]
      exact Meets.pure fun s h => h
    rw [dif_neg hnil]
    refine Meets.bind sendSome_sees fun sent => Meets.bind (quietly emitProgress_sees) fun _ => ?_
    have hlength := List.length_pos_iff.mpr hnil
    have hpos := sent.property
    have hshort : (pending.drop sent.val).length < n := by
      rw [List.length_drop]
      omega
    have hsplit : written ++ pending.take sent.val ++ pending.drop sent.val = written ++ pending := by
      rw [List.append_assoc, List.take_append_drop]
    have hrest := ih _ hshort (pending.drop sent.val) (written ++ pending.take sent.val) rfl
    rw [hsplit] at hrest
    exact hrest

theorem readSource_sees {shown : List Fingerprint} {written bytes : Bytes} {limit : Nat} :
    Meets (Sees (written, bytes, shown)) (readSource w limit)
      (fun chunk => Sees (written, bytes ++ chunk.val, shown)) (fun _ => Sees (written, bytes, shown)) := by
  refine asks_meets (fun s chunk h => ⟨h.1.push id rfl, ?_⟩) (fun s e h => h.push id rfl)
  change (writtenBytes s.log, readBytes s.log ++ chunk.val, fingerprints s.log) = _
  rw [h.written, h.bytes, h.shown]

theorem fstat_sees {shown : List Fingerprint} {written bytes : Bytes} :
    Meets (Sees (written, bytes, shown)) (fstat w)
      (fun fingerprint => Sees (written, bytes, shown ++ [fingerprint])) (fun _ => Quiet) := by
  refine asks_meets (fun s fingerprint h => ⟨h.1.push id rfl, ?_⟩) (fun s e h => h.1.push id rfl)
  change (writtenBytes s.log, readBytes s.log, fingerprints s.log ++ [fingerprint]) = _
  rw [h.written, h.bytes, h.shown]

theorem setChanged_sees (text : Text) : Meets (Sees v) (setChanged (ε := ε) text)
    (fun _ s => Sees v s ∧ s.sourceChanged = text) (fun _ => Quiet) :=
  Meets.update fun _ h => ⟨⟨⟨h.1.noAdb, h.1.uncommitted, h.1.count⟩, h.2⟩, rfl⟩

/-- What was read is written. -/
def Copied (shown : List Fingerprint) (s : State ε) : Prop := ∃ written, Sees (written, written, shown) s

theorem sourceEnded_sees (expectedSize : Nat) : Meets (Sees v) (sourceEnded (ε := ε) expectedSize)
    (fun _ => Sees v) (fun _ => Quiet) := by
  refine Meets.bind (Q := fun _ => Sees v) (Meets.read fun _ h => h) fun sentBytes => ?_
  exact (setChanged_sees _).mono (fun _ h => h) (fun _ _ h => h.1) (fun _ _ h => h)

theorem copySource_copied {shown : List Fingerprint} (expectedSize bufferSize remaining : Nat) (written : Bytes) :
    Meets (Sees (written, written, shown)) (copySource w expectedSize bufferSize remaining)
      (fun _ => Copied shown) (fun _ => Quiet) := by
  induction remaining using Nat.strong_induction_on generalizing written with
  | _ remaining ih =>
    rw [copySource]
    by_cases hzero : remaining = 0
    · rw [dif_pos hzero]
      exact Meets.pure fun _ h => ⟨written, h⟩
    rw [dif_neg hzero]
    refine Meets.bind (quietly raiseIfCancelled_sees) fun _ => ?_
    refine Meets.bind (readSource_sees.weaken fun _ _ => Sees.quiet) fun chunk => ?_
    by_cases hchunk : chunk.val = []
    · rw [dif_pos hchunk, hchunk, List.append_nil]
      exact (sourceEnded_sees expectedSize).mono (fun _ h => h) (fun _ _ h => ⟨written, h⟩) (fun _ _ h => h)
    rw [dif_neg hchunk]
    refine Meets.bind (sendPending_sees chunk.val written) fun _ => ih _ ?_ (written ++ chunk.val)
    have hpos := List.length_pos_iff.mpr hchunk
    omega

/-- Unless the source has changed, what was read is written. -/
def Grown (shown : List Fingerprint) (s : State ε) : Prop :=
  Quiet s ∧ fingerprints s.log = shown ∧ (s.sourceChanged = [] → writtenBytes s.log = readBytes s.log)

theorem Copied.grown {shown : List Fingerprint} {s : State ε} (h : Copied shown s) : Grown shown s := by
  obtain ⟨written, h⟩ := h
  exact ⟨h.quiet, h.shown, fun _ => h.written.trans h.bytes.symm⟩

theorem ifUnchanged_meets {x : Procedure ε Unit} {Q : Unit → State ε → Prop} {E : Raised ε → State ε → Prop}
    (hx : Meets P x Q E) (hchanged : ∀ s, s.sourceChanged ≠ [] → P s → Q () s) : Meets P (ifUnchanged x) Q E := by
  refine Meets.bind (Q := fun changed s => s.sourceChanged = changed ∧ P s) (Meets.read fun _ h => ⟨rfl, h⟩) ?_
  intro changed
  refine Meets.ite (fun _ => hx.mono (fun _ h => h.2) (fun _ _ h => h) (fun _ _ h => h)) (fun hne => ?_)
  refine Meets.pure fun s h => hchanged s ?_ h.2
  rw [h.1]
  exact hne

theorem noteGrowth_grown {shown : List Fingerprint} (expectedSize : Nat) :
    Meets (Copied shown) (ifUnchanged (noteGrowth w expectedSize)) (fun _ => Grown shown) (fun _ => Quiet) := by
  refine ifUnchanged_meets (Meets.of_exists fun written => ?_) (fun s _ h => h.grown)
  refine Meets.bind (readSource_sees.weaken fun _ _ => Sees.quiet) fun more =>
    Meets.ite (fun hmore => ?_) (fun _ => ?_)
  · refine Meets.pure fun s h => Copied.grown ⟨written, ?_⟩
    rw [hmore, List.append_nil] at h
    exact h
  · refine (setChanged_sees _).mono (fun _ h => h) (fun _ s h => ?_) (fun _ _ h => h)
    refine ⟨h.1.quiet, h.1.shown, fun hunchanged => ?_⟩
    rw [h.2] at hunchanged
    cases hunchanged

theorem fstat_grown {shown : List Fingerprint} : Meets (Grown shown) (fstat w)
    (fun fingerprint => Grown (shown ++ [fingerprint])) (fun _ => Quiet) := by
  refine asks_meets (fun s fingerprint h => ⟨h.1.push id rfl, ?_, h.2.2⟩) (fun s e h => h.1.push id rfl)
  exact congrArg (· ++ [fingerprint]) h.2.1

/-- Unless the source has changed, all that was read is written and the source looks as before. -/
def Whole (s : State ε) : Prop :=
  Quiet s ∧ (s.sourceChanged = [] →
    writtenBytes s.log = readBytes s.log ∧ ∃ fingerprint, fingerprints s.log = [fingerprint, fingerprint])

theorem Whole.push {s : State ε} {e : Event ε} (h : Whole s) (hadb : ¬e.isAdb)
    (hview : view (e :: s.log) = view s.log) : Whole { s with log := e :: s.log } := by
  refine ⟨h.1.push hadb (congrArg Prod.fst hview), fun hunchanged => ?_⟩
  obtain ⟨hcontent, fingerprint, hshown⟩ := h.2 hunchanged
  refine ⟨?_, fingerprint, ?_⟩
  · rw [show writtenBytes (e :: s.log) = _ from congrArg Prod.fst hview,
      show readBytes (e :: s.log) = _ from congrArg (fun v => v.2.1) hview]
    exact hcontent
  · exact (congrArg (fun v => v.2.2) hview).trans hshown

theorem whole_of_changed {s : State ε} {text : Text} (h : Quiet s) (hchanged : s.sourceChanged = text)
    (hne : text ≠ []) : Whole s := by
  refine ⟨h, fun hunchanged => ?_⟩
  rw [hchanged] at hunchanged
  exact absurd hunchanged hne

theorem noteMetadata_whole {initial final : Fingerprint} : Meets (Grown [initial, final])
    (ifUnchanged (noteMetadata initial final)) (fun _ => Whole (ε := ε)) (fun _ => Quiet) := by
  refine ifUnchanged_meets (Meets.ite (fun hsame => ?_) (fun _ => ?_)) (fun s hchanged h => ?_)
  · refine Meets.pure fun s h => ⟨h.1, fun hunchanged => ⟨h.2.2 hunchanged, initial, ?_⟩⟩
    rw [h.2.1, hsame]
  · refine Meets.update fun s h => whole_of_changed ⟨h.1.noAdb, h.1.uncommitted, h.1.count⟩ rfl ?_
    intro hnil
    cases hnil
  · exact whole_of_changed h.1 rfl hchanged

theorem emitProgress_whole {force : Bool} : Meets Whole (emitProgress w force) (fun _ => Whole)
    (fun _ => Quiet) := by
  refine Meets.bind (Q := fun _ => Whole) (Meets.read fun _ h => h) fun due =>
    Meets.ite (fun _ => ?_) (fun _ => ?_)
  · exact asks_meets (fun s _ h => h.push id rfl) (fun s _ h => h.1.push id rfl)
  · exact Meets.pure fun _ h => h

/-- A writer that returns has compared the source with what it was, or says what has changed. -/
theorem inputWriter_whole (expectedSize bufferSize : Nat) : Meets (Sees ([], [], []))
    (inputWriter w expectedSize bufferSize) (fun _ => Whole) (fun _ => Quiet) := by
  refine Meets.bind (quietly (asks_sees (fun _ => id) (fun _ _ => rfl))) fun _ => ?_
  refine Meets.bind fstat_sees fun opened => Meets.ite (fun _ => ?_) (fun _ => ?_)
  · refine Meets.bind (Q := fun _ => Whole) ?_ fun _ => emitProgress_whole
    refine (setChanged_sees _).mono (fun _ h => h) (fun _ s h => ?_) (fun _ _ h => h)
    refine whole_of_changed h.1.1 h.2 ?_
    intro hnil
    cases hnil
  · refine Meets.bind (copySource_copied expectedSize bufferSize expectedSize []) fun _ => ?_
    refine Meets.bind (noteGrowth_grown expectedSize) fun _ => Meets.bind fstat_grown fun finished => ?_
    exact Meets.bind noteMetadata_whole fun _ => emitProgress_whole

theorem attempt_meets {x : Procedure ε Unit} {Q : State ε → Prop} {E : Raised ε → State ε → Prop}
    (h : Meets P x (fun _ => Q) E) :
    Meets P (attempt x) (fun written s => (written = true → Q s) ∧ ((∃ e, E e s) ∨ Q s)) (fun _ _ => False) := by
  refine Meets.catching (Meets.bind h fun _ => Meets.pure fun s hs => ⟨fun _ => hs, .inr hs⟩) fun e => ?_
  refine Meets.pure fun s hs => ⟨fun hfalse => ?_, .inl ⟨e, hs⟩⟩
  cases hfalse

/-- A command that succeeds had a writer that has returned. -/
theorem streamResult_success {lower : Text → Text} {written : Bool} {ending : Ending}
    (h : (streamResult lower written ending).success = true) : written = true := by
  cases ending with
  | interrupted exitCode stdout stderr status errorType => cases h
  | exited exitCode stdout stderr =>
    rw [streamResult] at h
    by_cases hboth : exitCode = 0 ∧ written = true
    · exact hboth.2
    · rw [if_neg hboth] at h
      cases h

theorem runRawWithInputStream_whole (script : Text) (expectedSize bufferSize : Nat) : Meets (Sees ([], [], []))
    (runRawWithInputStream w script (inputWriter w expectedSize bufferSize))
    (fun result s => Quiet s ∧ (result.success = true → Whole s)) (fun _ => Quiet) := by
  refine Meets.bind (Q := fun _ => Sees ([], [], [])) (asks_meets (fun s _ h => h.push id rfl)
    (fun s _ h => (h.push id rfl).quiet)) fun start => ?_
  cases start with
  | refused status errorType =>
    refine Meets.pure fun s h => ⟨h.quiet, fun hsuccess => ?_⟩
    cases hsuccess
  | started =>
    refine Meets.bind ((attempt_meets (inputWriter_whole expectedSize bufferSize)).weaken fun _ _ h => h.elim)
      fun written => ?_
    have hquiet : ∀ s : State ε, (∃ _ : Raised ε, Quiet s) ∨ Whole s → Quiet s := by
      intro s h
      obtain ⟨_, h⟩ | h := h
      · exact h
      · exact h.1
    refine Meets.bind (Q := fun _ s => Quiet s ∧ (written = true → Whole s)) (asks_meets
      (fun s _ h => ⟨(hquiet s h.2).push id rfl, fun hwritten => (h.1 hwritten).push id rfl⟩)
      (fun s _ h => (hquiet s h.2).push id rfl)) fun ending => ?_
    exact Meets.pure fun s h => ⟨h.1, fun hsuccess => h.2 (streamResult_success hsuccess)⟩

end Writing

section Publishing

variable {w : World ε} {c : Client} {g : Staging}

/-- What the cleanup finds: the commit is established exactly where the variable says so. -/
structure Settled (g : Staging) (s : State ε) : Prop where
  committed : s.committed = true ↔ Established g s.log
  unattempted : ∀ e ∈ s.log, ¬e.isRemoval g

theorem Quiet.settled {s : State ε} (h : Quiet s) : Settled g s where
  committed := by
    rw [h.uncommitted]
    exact iff_of_false (by decide) (not_established h.noAdb)
  unattempted := by
    intro e hmem hremoval
    have hadb := h.noAdb e hmem
    cases e with
    | adb route script watched reply => exact hadb trivial
    | _ => exact hremoval

/-- Nor was it looked for the file. -/
structure Ready (g : Staging) (s : State ε) : Prop extends Settled g s where
  unverified : ∀ e ∈ s.log, ¬e.isVerification g

theorem checkStream_complete {result : CommandResult} : Meets
    (fun s => Quiet s ∧ (result.success = true → Whole s)) (checkStream w g.size result)
    (fun result s => Quiet s ∧ (result.success = true → Complete g s.log ∧ s.sentBytes = g.size))
    (fun _ => Quiet) := by
  refine Meets.bind (cancelled_meets (Q := fun _ s => Quiet s ∧ (result.success = true → Whole s)) ?_)
    fun stop => ?_
  · exact fun s set h => ⟨h.1.push id rfl, fun hsuccess => (h.2 hsuccess).push id rfl⟩
  refine Meets.bind (Q := fun changed s => s.sourceChanged = changed ∧ Quiet s ∧ (result.success = true → Whole s))
    (Meets.read fun _ h => ⟨rfl, h⟩) fun changed => ?_
  refine Meets.bind (Q := fun sent s => s.sentBytes = sent ∧ s.sourceChanged = changed ∧ Quiet s ∧
    (result.success = true → Whole s)) (Meets.read fun _ h => ⟨rfl, h⟩) fun sent => ?_
  refine Meets.ite (fun _ => Meets.pure fun s h => ⟨h.2.2.1, fun hsuccess => ?_⟩) (fun _ => ?_)
  · cases hsuccess
  refine Meets.ite (fun _ => Meets.pure fun s h => ⟨h.2.2.1, fun hsuccess => ?_⟩) (fun hsame => ?_)
  · cases hsuccess
  refine Meets.pure fun s h => ⟨h.2.2.1, fun hsuccess => ?_⟩
  obtain ⟨hsent, hchanged, hquiet, hwhole⟩ := h
  have hunchanged : changed = [] := by
    by_contra hne
    exact hsame ⟨hsuccess, .inl hne⟩
  have hsize : sent = g.size := by
    by_contra hne
    exact hsame ⟨hsuccess, .inr hne⟩
  obtain ⟨hcontent, hshown⟩ := (hwhole hsuccess).2 (hchanged.trans hunchanged)
  refine ⟨⟨?_, hcontent, hshown⟩, hsent.trans hsize⟩
  rw [← hquiet.count, hsent, hsize]

end Publishing

section Keeping

variable {w : World ε} {c : Client} {target temp : Text} {expectedSize : Nat} {useRoot : Bool}

/-- What a transfer has shown until its end. -/
def kept (s : State ε) : (Bytes × Bytes × List Fingerprint) × Nat := (view s.log, s.sentBytes)

theorem asks_keeps {α : Type} {answer : Log ε → Except (Raised ε) α} {event : Except (Raised ε) α → Event ε}
    (hview : ∀ reply log, view (event reply :: log) = view log) : Keeps kept (asks answer event) := by
  intro s
  exact congrArg (fun v => (v, s.sentBytes)) (hview (answer s.log) s.log)

theorem cancelled_keeps : Keeps kept (cancelled w) := fun _ => rfl

theorem setCommitted_keeps (committed : Bool) : Keeps kept (setCommitted (ε := ε) committed) := fun _ => rfl

theorem shell_keeps {route : Route} {script : Text} {watched : Bool} : Keeps kept (shell w route script watched) :=
  asks_keeps fun _ _ => rfl

theorem emitProgress_keeps {force : Bool} : Keeps kept (emitProgress w force) :=
  Keeps.bind (.read _) fun _ => Keeps.ite (asks_keeps fun _ _ => rfl) (.pure _)

theorem runPublicTransferShell_keeps {script : Text} {watched : Bool} :
    Keeps kept (runPublicTransferShell w c target script watched) :=
  Keeps.ite shell_keeps shell_keeps

theorem acceptVerified_keeps {verified : CommandResult} : Keeps kept (acceptVerified w verified) :=
  Keeps.ite (Keeps.bind cancelled_keeps fun _ => .pure _) (.pure _)

theorem reconcile_keeps {finalizeResult : CommandResult} :
    Keeps kept (reconcile w c target temp expectedSize useRoot finalizeResult) := by
  refine Keeps.ite (Keeps.bind cancelled_keeps fun stop => Keeps.ite (.pure _) ?_) (.pure _)
  exact Keeps.catching (Keeps.bind runPublicTransferShell_keeps fun _ => acceptVerified_keeps) fun _ => .pure _

theorem settle_keeps {result finalizeResult : CommandResult} :
    Keeps kept (settle w c target temp expectedSize useRoot result finalizeResult) := by
  refine Keeps.bind cancelled_keeps fun stop => Keeps.ite (.pure _) (Keeps.ite (.pure _) ?_)
  refine Keeps.bind reconcile_keeps fun verifiedCommit => Keeps.ite ?_ (.pure _)
  exact Keeps.bind (setCommitted_keeps true) fun _ => Keeps.bind cancelled_keeps fun _ => .pure _

theorem finalize_keeps {result : CommandResult} :
    Keeps kept (finalize w c target temp expectedSize useRoot result) := by
  refine Keeps.bind emitProgress_keeps fun _ => Keeps.bind ?_ fun finalizeResult => ?_
  · exact Keeps.ite shell_keeps runPublicTransferShell_keeps
  · exact Keeps.bind (setCommitted_keeps _) fun _ => settle_keeps

end Keeping

section Finalizing

variable {w : World ε} {c : Client} {g : Staging}

theorem established_push {log : Log ε} (e : Event ε) (h : Established g log) : Established g (e :: log) := by
  obtain ⟨e', hmem, hpublishes⟩ | haccepted := h
  · exact .inl ⟨e', List.mem_cons_of_mem e hmem, hpublishes⟩
  · exact .inr (accepted_cons_iff.mpr (.inl haccepted))

theorem Settled.push {s : State ε} {e : Event ε} (h : Settled g s) (hpublishes : ¬e.publishes g)
    (hcancelled : e ≠ .cancelled false) (hremoval : ¬e.isRemoval g) : Settled g { s with log := e :: s.log } where
  committed := h.committed.trans (established_cons_iff hpublishes hcancelled).symm
  unattempted := List.forall_mem_cons.mpr ⟨hremoval, h.unattempted⟩

theorem Ready.cancelled {s : State ε} (h : Ready g s) (set : Bool) :
    Ready g { s with log := .cancelled set :: s.log } where
  committed := h.committed.trans (established_cancelled_iff h.unverified).symm
  unattempted := List.forall_mem_cons.mpr ⟨id, h.unattempted⟩
  unverified := List.forall_mem_cons.mpr ⟨id, h.unverified⟩

theorem Quiet.ready {s : State ε} (h : Quiet s) : Ready g s where
  toSettled := h.settled
  unverified := by
    intro e hmem hverification
    have hadb := h.noAdb e hmem
    cases e with
    | adb route script watched reply => exact hadb trivial
    | _ => exact hverification

theorem emitProgress_quiet {force : Bool} : Meets Quiet (emitProgress w force) (fun _ => Quiet)
    (fun _ => Quiet) := by
  refine (Meets.of_exists (R := Sees) fun v => ?_).mono (fun s h => ⟨view s.log, h, rfl⟩) (fun _ _ h => h)
    (fun _ _ h => h)
  exact emitProgress_sees.mono (fun _ h => h) (fun _ _ => Sees.quiet) (fun _ _ => Sees.quiet)

theorem runPublicTransferShell_meets {P : State ε → Prop} {Q : CommandResult → State ε → Prop}
    {E : Raised ε → State ε → Prop} {target script : Text} {watched : Bool}
    (h : ∀ route, Meets P (shell w route script watched) Q E) :
    Meets P (runPublicTransferShell w c target script watched) Q E :=
  Meets.ite (fun _ => h _) (fun _ => h _)

/-- After the move, its result tells whether the commit is established. -/
theorem runFinalize_ready : Meets Quiet (runFinalize w c g.target g.temp g.size g.useRoot)
    (fun result s => Ready g { s with committed := result.success }) (fun _ => Settled g) := by
  have hshell : ∀ route, Meets Quiet (shell w route (finalizeScript g.target g.temp g.size g.useRoot) true)
      (fun result s => Ready g { s with committed := result.success }) (fun _ => Settled g) := by
    intro route
    refine asks_meets (fun s result h => ?_) (fun s e h => ?_)
    · refine ⟨⟨?_, ?_⟩, ?_⟩
      · by_cases hsuccess : result.success = true
        · exact iff_of_true hsuccess (.inl ⟨_, List.mem_cons_self, rfl, hsuccess⟩)
        · have hnot : ¬(Event.adb (ε := ε) route (finalizeScript g.target g.temp g.size g.useRoot) true
              (.ok result)).publishes g := fun hpublishes => hsuccess hpublishes.2
          refine iff_of_false hsuccess fun hestablished => not_established (g := g) h.noAdb ?_
          exact (established_cons_iff hnot (fun h => by cases h)).mp hestablished
      · exact List.forall_mem_cons.mpr ⟨finalizeScript_ne_cleanupScript, h.settled.unattempted⟩
      · exact List.forall_mem_cons.mpr ⟨finalizeScript_ne_verifyScript, h.ready.unverified⟩
    · exact h.settled.push id (fun h => by cases h) finalizeScript_ne_cleanupScript
  exact Meets.ite (fun _ => hshell _) (fun _ => runPublicTransferShell_meets hshell)

/-- What a verification of the commit leaves. -/
def Judged (g : Staging) (accepted : Bool) (s : State ε) : Prop :=
  (∀ e ∈ s.log, ¬e.isRemoval g) ∧ (accepted = true → Established g s.log) ∧ (accepted = false → Settled g s)

theorem Settled.judged {s : State ε} (h : Settled g s) : Judged g false s :=
  ⟨h.unattempted, (fun hfalse => by cases hfalse), fun _ => h⟩

theorem verify_settled {s : State ε} {route : Route} {watched : Bool}
    {reply : Except (Raised ε) CommandResult} (h : Settled g s) :
    Settled g { s with log := .adb route (verifyScript g.target g.temp g.size) watched reply :: s.log } := by
  refine h.push ?_ (fun h => by cases h) verifyScript_ne_cleanupScript
  cases reply with
  | ok result => exact fun hpublishes => finalizeScript_ne_verifyScript hpublishes.1.symm
  | error e => exact id

/-- A check that finds nothing accepts what was verified right before. -/
theorem acceptVerified_judged {verified : CommandResult} : Meets
    (fun s => ∃ past route watched,
      s.log = .adb route (verifyScript g.target g.temp g.size) watched (.ok verified) :: past ∧ Settled g s)
    (acceptVerified w verified) (Judged g) (fun _ => Settled g) := by
  refine Meets.ite (fun hsuccess => ?_) (fun _ => Meets.pure fun s h => ?_)
  · refine Meets.bind (Q := fun set => Judged g !set) (cancelled_meets fun s set h => ?_) fun stop =>
      Meets.pure fun _ h => h
    obtain ⟨past, route, watched, hlog, hsettled⟩ := h
    cases set with
    | true => exact (hsettled.push id (fun h => by cases h) id).judged
    | false =>
      refine ⟨List.forall_mem_cons.mpr ⟨id, hsettled.unattempted⟩, fun _ => .inr ?_, fun h => by cases h⟩
      refine ⟨[], past, .adb route (verifyScript g.target g.temp g.size) watched (.ok verified), ?_, rfl, hsuccess⟩
      exact congrArg (Event.cancelled false :: ·) hlog
  · obtain ⟨past, route, watched, hlog, hsettled⟩ := h
    exact hsettled.judged

theorem publicPushCommitVerified_judged : Meets (Ready g)
    (publicPushCommitVerified w c g.target g.temp g.size) (Judged g) (fun _ => Settled g) := by
  refine Meets.bind (cancelled_meets (Q := fun _ => Ready g) fun s set h => h.cancelled set) fun stop =>
    Meets.ite (fun _ => Meets.pure fun _ h => h.toSettled.judged) (fun _ => ?_)
  refine Meets.catching (E := fun _ => Settled g) ?_ (fun _ => Meets.pure fun _ h => h.judged)
  refine Meets.bind (runPublicTransferShell_meets fun route => ?_) fun verified => acceptVerified_judged
  refine asks_meets (fun s verified h => ?_) (fun s e h => verify_settled h.toSettled)
  exact ⟨s.log, route, true, rfl, verify_settled h.toSettled⟩

theorem reconcile_judged {finalizeResult : CommandResult} : Meets (Ready g)
    (reconcile w c g.target g.temp g.size g.useRoot finalizeResult) (Judged g) (fun _ => Settled g) :=
  Meets.ite (fun _ => publicPushCommitVerified_judged) (fun _ => Meets.pure fun _ h => h.toSettled.judged)

/-- A success comes with an established commit. -/
def Committed (g : Staging) (result : CommandResult) (s : State ε) : Prop :=
  Settled g s ∧ (result.success = true → Established g s.log)

theorem Settled.committed_failed {s : State ε} {result : CommandResult} (h : Settled g s)
    (hfailed : result.success = false) : Committed g result s := by
  refine ⟨h, fun hsuccess => ?_⟩
  rw [hfailed] at hsuccess
  cases hsuccess

theorem settle_committed {result finalizeResult : CommandResult} : Meets
    (fun s => Ready g s ∧ s.committed = finalizeResult.success)
    (settle w c g.target g.temp g.size g.useRoot result finalizeResult) (Committed g) (fun _ => Settled g) := by
  refine Meets.bind (cancelled_meets (Q := fun _ s => Ready g s ∧ s.committed = finalizeResult.success)
    fun s set h => ⟨h.1.cancelled set, h.2⟩) fun stop => ?_
  refine Meets.ite (fun _ => Meets.pure fun s h => h.1.toSettled.committed_failed rfl) (fun _ => ?_)
  refine Meets.ite (fun hsuccess => Meets.pure fun s h => ⟨h.1.toSettled, fun _ => ?_⟩) (fun _ => ?_)
  · exact h.1.committed.mp (h.2.trans hsuccess)
  refine Meets.bind (reconcile_judged.mono (fun _ h => h.1) (fun _ _ h => h) (fun _ _ h => h))
    fun verifiedCommit => Meets.ite (fun haccepted => ?_) (fun hrejected => Meets.pure fun s h => ?_)
  · refine Meets.bind (Q := fun _ s => Settled g s ∧ Established g s.log) (Meets.update fun s h => ?_) fun _ => ?_
    · exact ⟨⟨iff_of_true rfl (h.2.1 haccepted), h.1⟩, h.2.1 haccepted⟩
    refine Meets.bind (cancelled_meets (Q := fun _ s => Settled g s ∧ Established g s.log) fun s set h => ?_)
      fun stop => Meets.pure fun s h => ⟨h.1, fun _ => h.2⟩
    have hestablished := established_push (.cancelled set) h.2
    exact ⟨⟨iff_of_true (h.1.committed.mpr h.2) hestablished,
      List.forall_mem_cons.mpr ⟨id, h.1.unattempted⟩⟩, hestablished⟩
  · exact (h.2.2 (Bool.eq_false_iff.mpr hrejected)).committed_failed rfl

theorem finalize_committed {result : CommandResult} : Meets Quiet
    (finalize w c g.target g.temp g.size g.useRoot result) (Committed g) (fun _ => Settled g) := by
  refine Meets.bind (emitProgress_quiet.weaken fun _ _ => Quiet.settled) fun _ => ?_
  refine Meets.bind runFinalize_ready fun finalizeResult => ?_
  refine Meets.bind (Q := fun _ s => Ready g s ∧ s.committed = finalizeResult.success)
    (Meets.update fun s h => ⟨h, rfl⟩) fun _ => settle_committed

end Finalizing

section Publishing

variable {w : World ε} {c : Client} {g : Staging}

/-- What a success tells, of the result and of what was shown. -/
def Told (g : Staging) (k : (Bytes × Bytes × List Fingerprint) × Nat) : Prop :=
  k.1.1.length = g.size ∧ k.1.1 = k.1.2.1 ∧ (∃ fingerprint, k.1.2.2 = [fingerprint, fingerprint]) ∧ k.2 = g.size

theorem told_iff {s : State ε} : Told g (kept s) ↔ Complete g s.log ∧ s.sentBytes = g.size := by
  constructor
  · intro h
    exact ⟨⟨h.1, h.2.1, h.2.2.1⟩, h.2.2.2⟩
  · intro h
    exact ⟨h.1.size, h.1.content, h.1.unchanged, h.2⟩

/-- A push that succeeded: the whole of an unchanged source was sent and the commit is established. -/
structure Pushed (g : Staging) (sentBytes : Nat) (log : Log ε) : Prop extends Complete g log where
  sent : sentBytes = g.size
  established : Established g log

/-- How a transaction ends before its cleanup. -/
def Published (g : Staging) (outcome : CommandResult × Nat) (s : State ε) : Prop :=
  Settled g s ∧ (outcome.1.success = true → Pushed g outcome.2 s.log)

theorem withSent_published {result : CommandResult} : Meets
    (fun s => Committed g result s ∧ (result.success = true → Told g (kept s))) (withSent (ε := ε) result)
    (Published g) (fun _ => Settled g) := by
  refine Meets.bind (Q := fun sent s => s.sentBytes = sent ∧ Committed g result s ∧
    (result.success = true → Told g (kept s))) (Meets.read fun _ h => ⟨rfl, h⟩) fun sent => ?_
  refine Meets.pure fun s h => ⟨h.2.1.1, fun hsuccess => ?_⟩
  obtain ⟨hcomplete, hsent⟩ := told_iff.mp (h.2.2 hsuccess)
  exact ⟨hcomplete, h.1.symm.trans hsent, h.2.1.2 hsuccess⟩

theorem publish_published {wirelessMode : Bool} {script : Text} : Meets (Sees ([], [], []))
    (publish w c g.target g.temp g.size g.useRoot wirelessMode script) (Published g) (fun _ => Settled g) := by
  refine Meets.bind ((runRawWithInputStream_whole script g.size _).weaken fun _ _ => Quiet.settled)
    fun streamed => ?_
  refine Meets.bind (checkStream_complete.weaken fun _ _ => Quiet.settled) fun result =>
    Meets.ite (fun hsuccess => ?_) (fun hfailed => ?_)
  · refine Meets.bind (Q := fun result s => Committed g result s ∧ Told g (kept s))
      ((finalize_committed.keeping finalize_keeps (Told g)).mono (fun s h => ⟨h.1, told_iff.mpr (h.2 hsuccess)⟩)
        (fun _ _ h => h) (fun _ _ h => h)) fun result => ?_
    exact withSent_published.mono (fun s h => ⟨h.1, fun _ => h.2⟩) (fun _ _ h => h) (fun _ _ h => h)
  · refine withSent_published.mono (fun s h => ?_) (fun _ _ h => h) (fun _ _ h => h)
    exact ⟨h.1.settled.committed_failed (Bool.eq_false_iff.mpr hfailed), fun hsuccess => absurd hsuccess hfailed⟩

/-- The removal is attempted where the commit is not established, and only there. -/
def Discarded (g : Staging) (log : Log ε) : Prop := Attempted g log ↔ ¬Established g log

theorem shell_removal {route : Route} {watched : Bool} : Meets (fun s => ¬Established g s.log)
    (shell w route (cleanupScript g.temp) watched) (fun _ s => Attempted g s.log ∧ ¬Established g s.log)
    (fun _ s => Attempted g s.log ∧ ¬Established g s.log) := by
  have hpush : ∀ (s : State ε) reply, ¬Established g s.log →
      Attempted g (.adb route (cleanupScript g.temp) watched reply :: s.log) ∧
        ¬Established g (.adb route (cleanupScript g.temp) watched reply :: s.log) := by
    intro s reply h
    refine ⟨⟨_, List.mem_cons_self, rfl⟩, fun hestablished => h ?_⟩
    refine (established_cons_iff ?_ (fun h => by cases h)).mp hestablished
    cases reply with
    | ok result => exact fun hpublishes => finalizeScript_ne_cleanupScript hpublishes.1.symm
    | error e => exact id
  exact asks_meets (fun s _ h => hpush s _ h) (fun s _ h => hpush s _ h)

theorem discard_discarded (φ : Prop) : Meets
    (fun s => Settled g s ∧ (φ → Established g s.log ∧ Complete g s.log))
    (discard w c g.target g.temp g.useRoot)
    (fun _ s => Discarded g s.log ∧ (φ → Established g s.log ∧ Complete g s.log)) (fun _ _ => False) := by
  refine Meets.bind (Q := fun committed s => s.committed = committed ∧ Settled g s ∧
    (φ → Established g s.log ∧ Complete g s.log)) (Meets.read fun _ h => ⟨rfl, h⟩) fun committed => ?_
  refine Meets.ite (fun hcommitted => Meets.pure fun s h => ⟨?_, h.2.2⟩) (fun hcommitted => ?_)
  · have hestablished := h.2.1.committed.mp (h.1.trans hcommitted)
    refine iff_of_false (fun hattempted => ?_) (fun hnot => hnot hestablished)
    obtain ⟨e, hmem, hremoval⟩ := hattempted
    exact h.2.1.unattempted e hmem hremoval
  by_cases hφ : φ
  · intro s h
    exact absurd ((h.2.1.committed.mpr (h.2.2 hφ).1).symm.trans h.1) (fun h => hcommitted h.symm)
  refine Meets.mono (P := fun s => ¬Established g s.log)
    (Q := fun _ s => Attempted g s.log ∧ ¬Established g s.log) (E := fun _ _ => False) ?_ (fun s h => ?_)
    (fun _ s h => ⟨iff_of_true h.1 h.2, fun hφ' => absurd hφ' hφ⟩) (fun _ _ h => h)
  · refine Meets.catching (E := fun _ s => Attempted g s.log ∧ ¬Established g s.log)
      (Meets.bind ?_ fun _ => Meets.pure fun _ h => h) fun _ => ?_
    · exact Meets.ite (fun _ => shell_removal) (fun _ => runPublicTransferShell_meets fun _ => shell_removal)
    · refine Meets.ite (fun _ => ?_) (fun _ => Meets.pure fun _ h => h)
      refine (Meets.catching (Meets.bind shell_removal fun _ => Meets.pure fun _ h => h) fun _ =>
        Meets.pure fun _ h => h).mono (fun _ h => h.2) (fun _ _ h => h) (fun _ _ h => h)
  · intro hestablished
    exact hcommitted (h.1.symm.trans (h.2.1.committed.mpr hestablished))

end Publishing

section Pushing

variable (w : World ε) (c : Client) (target : Text) (useRoot wirelessMode : Bool) (expected : Option Int)

def start : State ε := ⟨[], 0, [], false⟩

/-- The size that a push is to send, if it can be told. -/
def sizeOf : Option Int → Option Nat
  | some size => some size.toNat
  | none => (w.stat []).toOption

def staging (size : Nat) : Staging := ⟨target, androidTempSiblingPath target w.stamp w.suffix, size, useRoot⟩

def run : Except (Raised ε) (CommandResult × Nat) × State ε :=
  streamPushFileToAndroidTarget w c target useRoot wirelessMode expected start

variable {w c target useRoot wirelessMode expected} {g : Staging}

/-- Before the stream command. -/
def Unstreamed (s : State ε) : Prop := Sees ([], [], []) s ∧ ¬Streamed s.log

theorem unstreamed_start : Unstreamed (start (ε := ε)) := by
  refine ⟨⟨⟨List.forall_mem_nil _, rfl, rfl⟩, rfl⟩, fun h => ?_⟩
  obtain ⟨script, reply, hmem⟩ := h
  cases hmem

theorem Unstreamed.push {s : State ε} {e : Event ε} (h : Unstreamed s) (hadb : ¬e.isAdb)
    (hview : view (e :: s.log) = view s.log) (hstart : ∀ script reply, e ≠ .start script reply) :
    Unstreamed { s with log := e :: s.log } := by
  refine ⟨h.1.push hadb hview, fun hstreamed => h.2 ?_⟩
  obtain ⟨script, reply, hmem⟩ := hstreamed
  obtain heq | hmem := List.mem_cons.mp hmem
  · exact absurd heq.symm (hstart script reply)
  · exact ⟨script, reply, hmem⟩

/-- Where a push ends, with its cleanup behind it. -/
def Finished (g : Staging) (outcome : CommandResult × Nat) (s : State ε) : Prop :=
  Discarded g s.log ∧ (outcome.1.success = true → Pushed g outcome.2 s.log)

theorem transaction_finished {script : Text} : Meets (Sees ([], [], []))
    (always (publish w c g.target g.temp g.size g.useRoot wirelessMode script)
      (discard w c g.target g.temp g.useRoot))
    (Finished g) (fun _ s => Discarded g s.log) := by
  refine Meets.always publish_published (fun outcome => ?_) (fun e => ?_)
  · intro s h
    have hdiscard := discard_discarded (w := w) (c := c) (g := g) (outcome.1.success = true ∧ outcome.2 = g.size) s
      ⟨h.1, fun hsuccess => ⟨(h.2 hsuccess.1).established, (h.2 hsuccess.1).toComplete⟩⟩
    refine hdiscard.mono (fun _ t ht => ⟨ht.1, fun hsuccess => ?_⟩) (fun _ _ h => h)
    have hsent := (h.2 hsuccess).sent
    obtain ⟨hestablished, hcomplete⟩ := ht.2 ⟨hsuccess, hsent⟩
    exact ⟨hcomplete, hsent, hestablished⟩
  · exact (discard_discarded False).mono (fun s h => ⟨h, False.elim⟩) (fun _ _ h => h.1) (fun _ _ h => h)

theorem stageScript_unstreamed {temp : Text} : Meets Unstreamed (stageScript w target temp useRoot)
    (fun _ => Unstreamed) (fun _ => Unstreamed) := by
  refine Meets.ite (fun _ => ?_) (fun _ => Meets.pure fun _ h => h)
  exact asks_meets (fun s _ h => h.push id rfl (fun _ _ h => by cases h))
    (fun s _ h => h.push id rfl (fun _ _ h => by cases h))

theorem staged_finished {size : Nat} : Meets Unstreamed
    (do
      let script ← stageScript w target (androidTempSiblingPath target w.stamp w.suffix) useRoot
      always (publish w c target (androidTempSiblingPath target w.stamp w.suffix) size useRoot wirelessMode script)
        (discard w c target (androidTempSiblingPath target w.stamp w.suffix) useRoot))
    (Finished (staging w target useRoot size))
    (fun _ s => ¬Streamed s.log ∨ Discarded (staging w target useRoot size) s.log) := by
  refine Meets.bind (stageScript_unstreamed.weaken fun _ _ h => .inl h.2) fun script => ?_
  exact (transaction_finished (g := staging w target useRoot size)).mono (fun _ h => h.1) (fun _ _ h => h)
    (fun _ _ h => .inr h)

theorem expectedBytes_unstreamed : Meets (fun s => s = start) (expectedBytes w expected)
    (fun size s => sizeOf w expected = some size ∧ Unstreamed s) (fun _ => Unstreamed) := by
  cases expected with
  | some size =>
    refine Meets.pure fun s h => ⟨rfl, ?_⟩
    rw [h]
    exact unstreamed_start
  | none =>
    intro s h
    rw [h]
    change Outcome _ _ (asks w.stat .stat start)
    cases hstat : w.stat [] with
    | ok size =>
      rw [asks_ok (s := start) hstat]
      refine ⟨?_, unstreamed_start.push id rfl (fun _ _ h => by cases h)⟩
      rw [sizeOf, hstat]
      rfl
    | error e =>
      rw [asks_error (s := start) hstat]
      exact unstreamed_start.push id rfl (fun _ _ h => by cases h)

theorem push_finished : Meets (fun s => s = start)
    (streamPushFileToAndroidTarget w c target useRoot wirelessMode expected)
    (fun outcome s => ∃ size, sizeOf w expected = some size ∧ Finished (staging w target useRoot size) outcome s)
    (fun _ s => Streamed s.log → ∃ size, sizeOf w expected = some size ∧
      Discarded (staging w target useRoot size) s.log) := by
  refine Meets.bind (expectedBytes_unstreamed.weaken fun _ s h hstreamed => absurd hstreamed h.2) fun size => ?_
  refine Meets.of_fact fun hsize => ?_
  refine staged_finished.mono (fun _ h => h) (fun outcome s h => ⟨size, hsize, h⟩) (fun _ s h hstreamed => ?_)
  exact ⟨size, hsize, h.resolve_left fun hnot => hnot hstreamed⟩

variable (w c target useRoot wirelessMode expected)

/-- A push succeeds only with the whole of an unchanged source in its place, and once its stream command has
been run, the temporary file is removed exactly where the commit is not established. -/
theorem push_publishes_what_it_verified :
    (∀ result sentBytes, (run w c target useRoot wirelessMode expected).1 = .ok (result, sentBytes) →
      result.success = true → ∃ size, sizeOf w expected = some size ∧
        Pushed (staging w target useRoot size) sentBytes (run w c target useRoot wirelessMode expected).2.log) ∧
    (Streamed (run w c target useRoot wirelessMode expected).2.log → ∃ size, sizeOf w expected = some size ∧
      Discarded (staging w target useRoot size) (run w c target useRoot wirelessMode expected).2.log) := by
  have hmeets : Outcome _ _ (run w c target useRoot wirelessMode expected) := push_finished start rfl
  cases hrun : run w c target useRoot wirelessMode expected with
  | mk reply s =>
    rw [hrun] at hmeets
    cases reply with
    | error e =>
      refine ⟨fun result sentBytes hok => ?_, hmeets⟩
      cases hok
    | ok outcome =>
      obtain ⟨size, hsize, hdiscarded, hpushed⟩ := hmeets
      refine ⟨fun result sentBytes hok hsuccess => ⟨size, hsize, ?_⟩, fun _ => ⟨size, hsize, hdiscarded⟩⟩
      cases hok
      exact hpushed hsuccess

/-- The access mode has changed before the push: the root script cannot be made. -/
def switchedMode : World Unit where
  unicode := UnicodeData.ascii
  lower := id
  stamp := 0
  suffix := 0
  stat _ := .error (.external ())
  rootShellScript _ _ := .error (.external ())
  start _ _ := .error (.external ())
  openSource _ := .error (.external ())
  fstat _ := .error (.external ())
  isSet _ := false
  read _ _ := .error (.external ())
  write _ _ := .error (.external ())
  due _ := false
  progress _ := .ok ()
  ended _ := .error (.external ())
  adb _ _ _ := .error (.external ())

def directClient : Client := ⟨none, false, false⟩

/-- Where nothing was staged, nothing is removed. -/
theorem switched_mode_removes_nothing : ¬Discarded (staging switchedMode "/data/f".toList true 1)
    (run switchedMode directClient "/data/f".toList true false (some 1)).2.log := by
  have hrun : (run switchedMode directClient "/data/f".toList true false (some 1)).2.log =
      [.rootScript (streamScript "/data/f".toList (androidTempSiblingPath "/data/f".toList 0 0))
        (.error (.external ()))] := rfl
  rw [hrun]
  intro hdiscarded
  have hnot : ¬Established (staging switchedMode "/data/f".toList true 1)
      [.rootScript (streamScript "/data/f".toList (androidTempSiblingPath "/data/f".toList 0 0))
        (.error (.external ()))] := not_established (List.forall_mem_singleton.mpr id)
  obtain ⟨e, hmem, hremoval⟩ := Iff.mpr hdiscarded hnot
  rw [List.mem_singleton.mp hmem] at hremoval
  exact hremoval

end Pushing

end OpenAdb.Transfer.Publishing

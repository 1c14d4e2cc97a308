import OpenAdb.Lib.EventLog
import OpenAdb.Lib.GrowCounter
import OpenAdb.Lib.Runs
import OpenAdb.P2p.Batches
import OpenAdb.P2p.Sender

namespace OpenAdb.P2p.Aggregation

open OpenAdb.Lib OpenAdb.Lib.PyText OpenAdb.Lib.Runs OpenAdb.Lib.EventLog OpenAdb.Lib.GrowCounter
open OpenAdb.P2p.Entry OpenAdb.P2p.Batches OpenAdb.P2p.Sender

inductive UpdateType
  | progress
  | file_start
  | other (name : Text)
  deriving DecidableEq

/-- A key that the dictionary lacks is `none`. -/
structure Update where
  type : UpdateType
  done_bytes : Option Nat
  total_bytes : Option Nat
  done_files : Option Nat
  total_files : Option Nat
  current_file : Option Text
  message : Option Text
  output : Option Text
  speed : Option Text
  activity : Option Text
  deriving DecidableEq

def Update.bytes (update : Update) : Nat := update.done_bytes.getD 0

def Update.files (update : Update) : Nat := update.done_files.getD 0

-- `_speed_text`, from a number of bytes and the time that the clock shows
variable (speedText : Nat → Nat → Text)

/-- The loop of `_upload_entry_batch`; an open file stands with what remains of it. -/
structure Sender where
  batch : List P2PEntry
  todo : List P2PEntry
  current : Option (P2PEntry × Nat)
  sent_bytes : Nat
  sent_files : Nat
  deriving DecidableEq

def Sender.new (batch : List P2PEntry) : Sender := ⟨batch, batch, none, 0, 0⟩

inductive SendAction
  | next
  | chunk (size now : Nat)
  | finish (now : Nat)
  | extra (update : Update)
  deriving DecidableEq

def fileStart (entry : P2PEntry) : Update where
  type := .file_start
  done_bytes := none
  total_bytes := none
  done_files := none
  total_files := none
  current_file := some entry.relative_path
  message := some ("P2P: ".toList ++ entry.relative_path)
  output := none
  speed := none
  activity := none

def Sender.progress (sender : Sender) (entry : P2PEntry) (now : Nat) : Update where
  type := .progress
  done_bytes := some sender.sent_bytes
  total_bytes := some (totalBytes sender.batch)
  done_files := some sender.sent_files
  total_files := some (totalFiles sender.batch)
  current_file := some entry.relative_path
  message := none
  output := none
  speed := some (speedText sender.sent_bytes now)
  activity := some "Direct ACBridge P2P upload".toList

def Sender.begin (sender : Sender) (entry : P2PEntry) (rest : List P2PEntry) : Sender :=
  { sender with
    todo := rest
    current := if entry.is_directory then none else some (entry, entry.size) }

def Sender.write (sender : Sender) (entry : P2PEntry) (remaining size : Nat) : Sender :=
  { sender with current := some (entry, remaining - size), sent_bytes := sender.sent_bytes + size }

def Sender.close (sender : Sender) : Sender :=
  { sender with current := none, sent_files := sender.sent_files + 1 }

/-- What a batch does up to its next update. Anything that carries no counter above zero may come
at any time, as from the preparation and the cleanup of the session; and a batch may stop anywhere. -/
def Sender.act (sender : Sender) : SendAction → Option (Sender × Update)
  | .next =>
    match sender.current, sender.todo with
    | none, entry :: rest => some (sender.begin entry rest, fileStart entry)
    | _, _ => none
  | .chunk size now =>
    match sender.current with
    | some (entry, remaining) =>
      if 0 < size ∧ size ≤ min P2P_BUFFER_SIZE remaining then
        some (sender.write entry remaining size,
          (sender.write entry remaining size).progress speedText entry now)
      else none
    | none => none
  | .finish now =>
    match sender.current with
    | some (entry, 0) => some (sender.close, sender.close.progress speedText entry now)
    | _ => none
  | .extra update => if update.bytes = 0 ∧ update.files = 0 then some (sender, update) else none

structure Report where
  index : Nat
  update : Update
  forwarded : Update
  deriving DecidableEq

def reportedBytes (log : List Report) : List (Nat × Nat) := log.map (fun r => (r.index, r.update.bytes))

def reportedFiles (log : List Report) : List (Nat × Nat) := log.map (fun r => (r.index, r.update.files))

/-- The updates that arrived, the latest first, stand beside what the caller got for them. -/
structure Upload where
  senders : List Sender
  batch_progress : List Nat
  batch_files : List Nat
  log : List Report
  deriving DecidableEq

def workerCount (entries : List P2PEntry) (parallelism : Nat) : Nat :=
  min parallelism (regularFiles entries).length

def Upload.new (entries : List P2PEntry) (parallelism : Nat) : Upload where
  senders := (uploadParallelEntries entries parallelism).map Sender.new
  batch_progress := List.replicate (workerCount entries parallelism) 0
  batch_files := List.replicate (workerCount entries parallelism) 0
  log := []

def activityText (worker_count : Nat) : Text :=
  "Direct ACBridge P2P upload (".toList ++ (toString worker_count).toList ++ " streams)".toList

def forwardedProgress (entries : List P2PEntry) (parallelism : Nat) (batch_progress batch_files : List Nat)
    (update : Update) (now : Nat) : Update :=
  { update with
    done_bytes := some batch_progress.sum
    total_bytes := some (totalBytes entries)
    done_files := some batch_files.sum
    total_files := some (totalFiles entries)
    speed := some (speedText batch_progress.sum now)
    activity := some (activityText (workerCount entries parallelism)) }

/-- The lock is held from the first comparison until the caller has the update. -/
def Upload.onProgress (entries : List P2PEntry) (parallelism : Nat) (s : Upload) (index : Nat)
    (update : Update) (now : Nat) : Upload :=
  if update.type = .progress then
    let batch_progress := s.batch_progress.modify index (max · update.bytes)
    let batch_files := s.batch_files.modify index (max · update.files)
    let forwarded := forwardedProgress speedText entries parallelism batch_progress batch_files update now
    { s with batch_progress, batch_files, log := ⟨index, update, forwarded⟩ :: s.log }
  else
    let forwarded := { update with activity := some (activityText (workerCount entries parallelism)) }
    { s with log := ⟨index, update, forwarded⟩ :: s.log }

structure Action where
  index : Nat
  send : SendAction
  now : Nat
  deriving DecidableEq

def Upload.step (entries : List P2PEntry) (parallelism : Nat) (s : Upload) (a : Action) : Option Upload :=
  match s.senders[a.index]? with
  | none => none
  | some sender =>
    match sender.act speedText a.send with
    | none => none
    | some (sender', update) =>
      some ({ s with senders := s.senders.set a.index sender' }.onProgress speedText entries parallelism
        a.index update a.now)

def Report.counters (r : Report) : Option (Nat × Nat) :=
  if r.forwarded.type = .progress then some (r.forwarded.bytes, r.forwarded.files) else none

def LastFilesReported (batches : List (List P2PEntry)) (log : List Report) : Prop :=
  ∀ index batch, batches[index]? = some batch → largest index (reportedFiles log) = totalFiles batch

/-- What the caller gets for a report that follows the given ones. -/
structure Exact (entries : List P2PEntry) (parallelism : Nat) (past : List Report) (r : Report) : Prop where
  bytes : r.update.type = .progress →
    r.forwarded.done_bytes = some (total (workerCount entries parallelism) (reportedBytes (r :: past)))
  files : r.update.type = .progress →
    r.forwarded.done_files = some (total (workerCount entries parallelism) (reportedFiles (r :: past)))
  bytes_le : total (workerCount entries parallelism) (reportedBytes (r :: past)) ≤ totalBytes entries
  files_le : total (workerCount entries parallelism) (reportedFiles (r :: past)) ≤ totalFiles entries
  last : r.update.type = .progress →
    LastFilesReported (uploadParallelEntries entries parallelism) (r :: past) →
    r.forwarded.done_bytes = some (totalBytes entries) ∧ r.forwarded.done_files = some (totalFiles entries)
  others : r.update.type ≠ .progress →
    r.forwarded.done_bytes = r.update.done_bytes ∧ r.forwarded.done_files = r.update.done_files
  type : r.forwarded.type = r.update.type

theorem totalBytes_append (a b : List P2PEntry) : totalBytes (a ++ b) = totalBytes a + totalBytes b := by
  simp [totalBytes, regularFiles]

theorem totalFiles_append (a b : List P2PEntry) : totalFiles (a ++ b) = totalFiles a + totalFiles b := by
  simp [totalFiles, regularFiles]

theorem totalBytes_cons (entry : P2PEntry) (rest : List P2PEntry) :
    totalBytes (entry :: rest) = (if entry.is_directory then 0 else entry.size) + totalBytes rest := by
  cases h : entry.is_directory <;> simp [totalBytes, regularFiles, h]

theorem totalFiles_cons (entry : P2PEntry) (rest : List P2PEntry) :
    totalFiles (entry :: rest) = (if entry.is_directory then 0 else 1) + totalFiles rest := by
  cases h : entry.is_directory <;> simp [totalFiles, regularFiles, h, Nat.add_comm]

theorem totalBytes_flatten (batches : List (List P2PEntry)) :
    totalBytes batches.flatten = (batches.map totalBytes).sum := by
  induction batches with
  | nil => rfl
  | cons batch batches ih => rw [List.flatten_cons, totalBytes_append, ih, List.map_cons, List.sum_cons]

theorem totalFiles_flatten (batches : List (List P2PEntry)) :
    totalFiles batches.flatten = (batches.map totalFiles).sum := by
  induction batches with
  | nil => rfl
  | cons batch batches ih => rw [List.flatten_cons, totalFiles_append, ih, List.map_cons, List.sum_cons]

theorem totalBytes_perm {a b : List P2PEntry} (h : a.Perm b) : totalBytes a = totalBytes b :=
  ((h.filter _).map _).sum_nat

theorem totalFiles_perm {a b : List P2PEntry} (h : a.Perm b) : totalFiles a = totalFiles b :=
  (h.filter _).length_eq

theorem totalBytes_eq_zero {entries : List P2PEntry} (h : totalFiles entries = 0) : totalBytes entries = 0 := by
  rw [totalBytes, List.eq_nil_of_length_eq_zero h]
  rfl

def Sender.openBytes (sender : Sender) : Nat := sender.current.elim 0 (·.2)

def Sender.openFiles (sender : Sender) : Nat := sender.current.elim 0 (fun _ => 1)

/-- What was sent, what is open and what has not been started make up the batch. -/
structure Sender.Accounted (sender : Sender) : Prop where
  bytes : sender.sent_bytes + sender.openBytes + totalBytes sender.todo = totalBytes sender.batch
  files : sender.sent_files + sender.openFiles + totalFiles sender.todo = totalFiles sender.batch

theorem Sender.Accounted.new (batch : List P2PEntry) : (Sender.new batch).Accounted :=
  ⟨Nat.zero_add _, Nat.zero_add _⟩

/-- Nothing is left to send after the last file. -/
theorem Sender.Accounted.all_sent {sender : Sender} (h : sender.Accounted)
    (hlast : sender.sent_files = totalFiles sender.batch) : sender.sent_bytes = totalBytes sender.batch := by
  have hfiles := h.files
  have hbytes := h.bytes
  have htodo : totalBytes sender.todo = 0 := totalBytes_eq_zero (by omega)
  have hopen : sender.openBytes = 0 := by
    have hnone : sender.openFiles = 0 := by omega
    unfold Sender.openFiles at hnone
    unfold Sender.openBytes
    cases hcurrent : sender.current with
    | none => rfl
    | some file =>
      rw [hcurrent] at hnone
      cases hnone
  omega

/-- The effect of one action on a sender and on the largest counters that it has reported. -/
structure Sent (before after : Sender) (update : Update) : Prop where
  batch : after.batch = before.batch
  accounted : after.Accounted
  bytes : after.sent_bytes = max before.sent_bytes update.bytes
  files : after.sent_files = max before.sent_files update.files
  others : update.type ≠ .progress → update.bytes = 0 ∧ update.files = 0

variable {speedText} {sender sender' : Sender} {update : Update}

theorem Sender.Accounted.begin {entry : P2PEntry} {rest : List P2PEntry} (h : sender.Accounted)
    (hcurrent : sender.current = none) (htodo : sender.todo = entry :: rest) :
    Sent sender (sender.begin entry rest) (fileStart entry) := by
  have hbytes := h.bytes
  have hfiles := h.files
  rw [htodo, totalBytes_cons, Sender.openBytes, hcurrent] at hbytes
  rw [htodo, totalFiles_cons, Sender.openFiles, hcurrent] at hfiles
  refine ⟨rfl, ⟨?_, ?_⟩, (Nat.max_zero _).symm, (Nat.max_zero _).symm, fun _ => ⟨rfl, rfl⟩⟩
  · rw [← show totalBytes sender.batch = totalBytes (sender.begin entry rest).batch from rfl, ← hbytes]
    cases hkind : entry.is_directory with
    | true => simp [Sender.begin, Sender.openBytes, hkind]
    | false =>
      simp [Sender.begin, Sender.openBytes, hkind]
      omega
  · rw [← show totalFiles sender.batch = totalFiles (sender.begin entry rest).batch from rfl, ← hfiles]
    cases hkind : entry.is_directory with
    | true => simp [Sender.begin, Sender.openFiles, hkind]
    | false =>
      simp [Sender.begin, Sender.openFiles, hkind]
      omega

theorem Sender.Accounted.write {entry : P2PEntry} {remaining size now : Nat} (h : sender.Accounted)
    (hcurrent : sender.current = some (entry, remaining)) (hsize : size ≤ remaining) :
    Sent sender (sender.write entry remaining size)
      ((sender.write entry remaining size).progress speedText entry now) := by
  have hbytes := h.bytes
  have hfiles := h.files
  rw [Sender.openBytes, hcurrent, Option.elim_some] at hbytes
  rw [Sender.openFiles, hcurrent, Option.elim_some] at hfiles
  refine ⟨rfl, ⟨?_, hfiles⟩, ?_, (Nat.max_self _).symm, fun hne => absurd rfl hne⟩
  · change sender.sent_bytes + size + (remaining - size) + totalBytes sender.todo = totalBytes sender.batch
    omega
  · exact (Nat.max_eq_right (Nat.le_add_right _ _)).symm

theorem Sender.Accounted.close {entry : P2PEntry} {now : Nat} (h : sender.Accounted)
    (hcurrent : sender.current = some (entry, 0)) :
    Sent sender sender.close (sender.close.progress speedText entry now) := by
  have hbytes := h.bytes
  have hfiles := h.files
  rw [Sender.openBytes, hcurrent, Option.elim_some] at hbytes
  rw [Sender.openFiles, hcurrent, Option.elim_some] at hfiles
  refine ⟨rfl, ⟨hbytes, ?_⟩, (Nat.max_self _).symm, ?_, fun hne => absurd rfl hne⟩
  · change sender.sent_files + 1 + 0 + totalFiles sender.todo = totalFiles sender.batch
    omega
  · exact (Nat.max_eq_right (Nat.le_succ _)).symm

theorem Sender.Accounted.act {a : SendAction} (h : sender.Accounted)
    (hact : sender.act speedText a = some (sender', update)) : Sent sender sender' update := by
  cases a with
  | next =>
    rw [Sender.act] at hact
    split at hact
    · rename_i entry rest hcurrent htodo
      cases hact
      exact h.begin hcurrent htodo
    · cases hact
  | chunk size now =>
    rw [Sender.act] at hact
    split at hact
    · rename_i entry remaining hcurrent
      split_ifs at hact with hsize
      cases hact
      exact h.write hcurrent (hsize.2.trans (min_le_right _ _))
    · cases hact
  | finish now =>
    rw [Sender.act] at hact
    split at hact
    · rename_i entry hcurrent
      cases hact
      exact h.close hcurrent
    · cases hact
  | extra update =>
    rw [Sender.act] at hact
    split_ifs at hact with hzero
    cases hact
    refine ⟨rfl, h, ?_, ?_, fun _ => hzero⟩
    · rw [hzero.1, Nat.max_zero]
    · rw [hzero.2, Nat.max_zero]

variable {entries : List P2PEntry} {parallelism : Nat} {s s' : Upload}

theorem uploadParallelEntries_none (h : workerCount entries parallelism = 0) :
    uploadParallelEntries entries parallelism = [] := by
  have hfill (items : List P2PEntry) : (GreedyBins.fill (·.size) 0 items).bins = [] := by
    suffices hbins : ∀ st : GreedyBins.Bins P2PEntry, st.bins = [] →
        (items.foldl (GreedyBins.Bins.place (·.size)) st).bins = [] from hbins _ rfl
    induction items with
    | nil => exact fun _ h => h
    | cons x items ih =>
      intro st hst
      apply ih
      rw [GreedyBins.Bins.place, hst, List.modify_nil]
  rw [workerCount] at h
  rw [uploadParallelEntries, h, hfill, List.modify_nil, ite_self]

theorem uploadParallelEntries_length :
    (uploadParallelEntries entries parallelism).length = workerCount entries parallelism := by
  by_cases hw : workerCount entries parallelism = 0
  · rw [uploadParallelEntries_none hw, hw]
    rfl
  · have hlen := (GreedyBins.fill_perm (·.size) (Nat.pos_of_ne_zero hw)
      ((regularFiles entries).insertionSort (fun a b => b.size ≤ a.size))).2
    rw [uploadParallelEntries]
    split_ifs
    · exact hlen
    · rw [List.length_modify]
      exact hlen

theorem uploadParallelEntries_perm (hw : 0 < workerCount entries parallelism) :
    (uploadParallelEntries entries parallelism).flatten.Perm entries := by
  have hsort := List.perm_insertionSort (fun a b : P2PEntry => b.size ≤ a.size) (regularFiles entries)
  obtain ⟨hperm, hlen⟩ := GreedyBins.fill_perm P2PEntry.size hw
    ((regularFiles entries).insertionSort (fun a b => b.size ≤ a.size))
  have hdirs := directories_perm entries
  rw [uploadParallelEntries]
  split_ifs with hd
  · rw [hd, List.nil_append] at hdirs
    exact (hperm.trans hsort).trans hdirs
  · refine (modify_zero_perm _ _ (List.ne_nil_of_length_pos ?_)).trans
      (((hperm.trans hsort).append_left _).trans hdirs)
    exact hlen.trans_gt hw

/-- What the senders have done, what they have reported and what is kept for them agree. -/
structure Counted (entries : List P2PEntry) (parallelism : Nat) (s : Upload) : Prop where
  batches : s.senders.map (·.batch) = uploadParallelEntries entries parallelism
  accounted : ∀ sender ∈ s.senders, sender.Accounted
  bytes : ∀ i sender, s.senders[i]? = some sender → largest i (reportedBytes s.log) = sender.sent_bytes
  files : ∀ i sender, s.senders[i]? = some sender → largest i (reportedFiles s.log) = sender.sent_files
  progress : s.batch_progress = counters (workerCount entries parallelism) (reportedBytes s.log)
  batch_files : s.batch_files = counters (workerCount entries parallelism) (reportedFiles s.log)

theorem Counted.new (entries : List P2PEntry) (parallelism : Nat) :
    Counted entries parallelism (Upload.new entries parallelism) := by
  have hnew (sender : Sender) (h : sender ∈ (Upload.new entries parallelism).senders) :
      ∃ batch, sender = Sender.new batch := by
    obtain ⟨batch, _, rfl⟩ := List.mem_map.mp h
    exact ⟨batch, rfl⟩
  refine ⟨?_, fun sender h => ?_, fun i sender h => ?_, fun i sender h => ?_, ?_, ?_⟩
  · exact (List.map_map ..).trans (List.map_id _)
  · obtain ⟨batch, rfl⟩ := hnew sender h
    exact .new batch
  · obtain ⟨batch, rfl⟩ := hnew sender (List.mem_of_getElem? h)
    rfl
  · obtain ⟨batch, rfl⟩ := hnew sender (List.mem_of_getElem? h)
    rfl
  · exact (counters_nil _).symm
  · exact (counters_nil _).symm

theorem Counted.length (h : Counted entries parallelism s) :
    s.senders.length = workerCount entries parallelism := by
  rw [← uploadParallelEntries_length, ← h.batches, List.length_map]

theorem Counted.workers (h : Counted entries parallelism s) (hs : s.senders ≠ []) :
    0 < workerCount entries parallelism := h.length ▸ List.length_pos_iff.mpr hs

theorem Counted.sum_bytes (h : Counted entries parallelism s) (hs : s.senders ≠ []) :
    (s.senders.map (fun sender => totalBytes sender.batch)).sum = totalBytes entries := by
  rw [← totalBytes_perm (uploadParallelEntries_perm (h.workers hs)), totalBytes_flatten, ← h.batches,
    List.map_map]
  rfl

theorem Counted.sum_files (h : Counted entries parallelism s) (hs : s.senders ≠ []) :
    (s.senders.map (fun sender => totalFiles sender.batch)).sum = totalFiles entries := by
  rw [← totalFiles_perm (uploadParallelEntries_perm (h.workers hs)), totalFiles_flatten, ← h.batches,
    List.map_map]
  rfl

theorem Counted.bytes_le (h : Counted entries parallelism s) (hs : s.senders ≠ []) :
    total (workerCount entries parallelism) (reportedBytes s.log) ≤ totalBytes entries := by
  rw [← h.sum_bytes hs]
  refine total_le h.length fun i sender hi => ?_
  have hbytes := (h.accounted sender (List.mem_of_getElem? hi)).bytes
  rw [h.bytes i sender hi]
  omega

theorem Counted.files_le (h : Counted entries parallelism s) (hs : s.senders ≠ []) :
    total (workerCount entries parallelism) (reportedFiles s.log) ≤ totalFiles entries := by
  rw [← h.sum_files hs]
  refine total_le h.length fun i sender hi => ?_
  have hfiles := (h.accounted sender (List.mem_of_getElem? hi)).files
  rw [h.files i sender hi]
  omega

/-- The sums reach the totals with the last files. -/
theorem Counted.complete (h : Counted entries parallelism s) (hs : s.senders ≠ [])
    (hlast : LastFilesReported (uploadParallelEntries entries parallelism) s.log) :
    total (workerCount entries parallelism) (reportedBytes s.log) = totalBytes entries ∧
      total (workerCount entries parallelism) (reportedFiles s.log) = totalFiles entries := by
  have hfiles (i : Nat) (sender : Sender) (hi : s.senders[i]? = some sender) :
      largest i (reportedFiles s.log) = totalFiles sender.batch := by
    apply hlast
    rw [← h.batches, List.getElem?_map, hi]
    rfl
  have hbytes (i : Nat) (sender : Sender) (hi : s.senders[i]? = some sender) :
      largest i (reportedBytes s.log) = totalBytes sender.batch := by
    rw [h.bytes i sender hi]
    apply (h.accounted sender (List.mem_of_getElem? hi)).all_sent
    rw [← h.files i sender hi]
    exact hfiles i sender hi
  constructor
  · rw [total, counters_eq_map h.length hbytes]
    exact h.sum_bytes hs
  · rw [total, counters_eq_map h.length hfiles]
    exact h.sum_files hs

theorem onProgress_senders (s : Upload) (index : Nat) (update : Update) (now : Nat) :
    (s.onProgress speedText entries parallelism index update now).senders = s.senders := by
  rw [Upload.onProgress]
  split_ifs <;> rfl

/-- What the caller gets for an update. -/
theorem onProgress_log (speedText : Nat → Nat → Text) (entries : List P2PEntry) (parallelism : Nat)
    (s : Upload) (index : Nat) (update : Update) (now : Nat) :
    ∃ forwarded : Update,
      (s.onProgress speedText entries parallelism index update now).log = ⟨index, update, forwarded⟩ :: s.log ∧
      forwarded.type = update.type ∧
      (update.type = .progress →
        forwarded.done_bytes =
            some (s.onProgress speedText entries parallelism index update now).batch_progress.sum ∧
          forwarded.done_files =
            some (s.onProgress speedText entries parallelism index update now).batch_files.sum) ∧
      (update.type ≠ .progress →
        forwarded.done_bytes = update.done_bytes ∧ forwarded.done_files = update.done_files) := by
  rw [Upload.onProgress]
  split_ifs with htype
  · exact ⟨_, rfl, rfl, fun _ => ⟨rfl, rfl⟩, fun hne => absurd htype hne⟩
  · exact ⟨_, rfl, rfl, fun heq => absurd heq htype, fun _ => ⟨rfl, rfl⟩⟩

theorem modify_max_zero (l : List Nat) (i : Nat) : l.modify i (max · 0) = l := by
  have hid : (fun n : Nat => max n 0) = id := funext fun n => Nat.max_zero n
  rw [hid, List.modify_id]

theorem onProgress_kept (speedText : Nat → Nat → Text) (entries : List P2PEntry) (parallelism : Nat)
    (s : Upload) (index : Nat) (now : Nat)
    (hothers : update.type ≠ .progress → update.bytes = 0 ∧ update.files = 0) :
    (s.onProgress speedText entries parallelism index update now).batch_progress =
        s.batch_progress.modify index (max · update.bytes) ∧
      (s.onProgress speedText entries parallelism index update now).batch_files =
        s.batch_files.modify index (max · update.files) := by
  rw [Upload.onProgress]
  split_ifs with htype
  · exact ⟨rfl, rfl⟩
  · obtain ⟨hbytes, hfiles⟩ := hothers htype
    rw [hbytes, hfiles, modify_max_zero, modify_max_zero]
    exact ⟨rfl, rfl⟩

theorem step_cases {a : Action} (h : s.step speedText entries parallelism a = some s') :
    ∃ sender sender' update, s.senders[a.index]? = some sender ∧
      sender.act speedText a.send = some (sender', update) ∧
      s' = { s with senders := s.senders.set a.index sender' }.onProgress speedText entries parallelism
        a.index update a.now := by
  rw [Upload.step] at h
  split at h
  · cases h
  · rename_i sender hsender
    split at h
    · cases h
    · rename_i sender' update hact
      exact ⟨sender, sender', update, hsender, hact, (Option.some.inj h).symm⟩

/-- The counters of the reports follow the senders. -/
theorem largest_set {senders : List Sender} {index : Nat} {reports : List (Nat × Nat)} {f : Sender → Nat}
    {n : Nat} (hsender : senders[index]? = some sender)
    (hreports : ∀ i sender, senders[i]? = some sender → largest i reports = f sender)
    (hnew : f sender' = max (f sender) n) (i : Nat) (t : Sender)
    (ht : (senders.set index sender')[i]? = some t) : largest i ((index, n) :: reports) = f t := by
  by_cases hi : index = i
  · subst hi
    rw [List.getElem?_set_self (List.getElem?_eq_some_iff.mp hsender).1] at ht
    rw [largest_self, hreports index sender hsender, ← hnew, Option.some.inj ht]
  · rw [List.getElem?_set_ne hi] at ht
    rw [largest_other hi, hreports i t ht]

theorem map_batch_set {senders : List Sender} {index : Nat} (hsender : senders[index]? = some sender)
    (hbatch : sender'.batch = sender.batch) :
    (senders.set index sender').map (·.batch) = senders.map (·.batch) := by
  rw [List.map_set, hbatch]
  apply List.ext_getElem?
  intro i
  by_cases hi : index = i
  · subst hi
    have hlt := (List.getElem?_eq_some_iff.mp hsender).1
    rw [List.getElem?_set_self (by rwa [List.length_map]), List.getElem?_map, hsender]
    rfl
  · rw [List.getElem?_set_ne hi]

theorem Counted.step {a : Action} (h : Counted entries parallelism s)
    (hstep : s.step speedText entries parallelism a = some s') : Counted entries parallelism s' := by
  obtain ⟨sender, sender', update, hsender, hact, rfl⟩ := step_cases hstep
  have hsent := (h.accounted sender (List.mem_of_getElem? hsender)).act hact
  obtain ⟨forwarded, hlog, _⟩ := onProgress_log speedText entries parallelism
    { s with senders := s.senders.set a.index sender' } a.index update a.now
  obtain ⟨hprogress, hfiles⟩ := onProgress_kept speedText entries parallelism
    { s with senders := s.senders.set a.index sender' } a.index a.now hsent.others
  refine ⟨?_, ?_, ?_, ?_, ?_, ?_⟩
  · rw [onProgress_senders, map_batch_set hsender hsent.batch]
    exact h.batches
  · intro t ht
    rw [onProgress_senders] at ht
    obtain ht | rfl := List.mem_or_eq_of_mem_set ht
    · exact h.accounted t ht
    · exact hsent.accounted
  · rw [onProgress_senders, hlog]
    exact largest_set hsender h.bytes hsent.bytes
  · rw [onProgress_senders, hlog]
    exact largest_set hsender h.files hsent.files
  · rw [hprogress, hlog, reportedBytes, List.map_cons, counters_cons]
    exact congrArg (List.modify · a.index (max · update.bytes)) h.progress
  · rw [hfiles, hlog, reportedFiles, List.map_cons, counters_cons]
    exact congrArg (List.modify · a.index (max · update.files)) h.batch_files

/-- A step adds one report, for which the caller gets the sums. -/
theorem Counted.exact {a : Action} (h : Counted entries parallelism s)
    (hstep : s.step speedText entries parallelism a = some s') :
    ∃ r, s'.log = r :: s.log ∧ Exact entries parallelism s.log r := by
  have hnext := h.step hstep
  obtain ⟨sender, sender', update, hsender, hact, rfl⟩ := step_cases hstep
  have hne : (s.senders.set a.index sender') ≠ [] := by
    have hlt := (List.getElem?_eq_some_iff.mp hsender).1
    refine List.ne_nil_of_length_pos ?_
    rw [List.length_set]
    omega
  have hbytes := hnext.bytes_le (by rwa [onProgress_senders])
  have hfiles := hnext.files_le (by rwa [onProgress_senders])
  have hlast := hnext.complete (by rwa [onProgress_senders])
  have hprogress := congrArg List.sum hnext.progress
  have hbatch := congrArg List.sum hnext.batch_files
  obtain ⟨forwarded, hlog, htype, hsums, hothers⟩ := onProgress_log speedText entries parallelism
    { s with senders := s.senders.set a.index sender' } a.index update a.now
  rw [hlog] at hbytes hfiles hlast hprogress hbatch
  refine ⟨⟨a.index, update, forwarded⟩, hlog, fun h => ?_, fun h => ?_, hbytes, hfiles, fun h hall => ?_,
    hothers, htype⟩
  · exact (hsums h).1.trans (congrArg some hprogress)
  · exact (hsums h).2.trans (congrArg some hbatch)
  · obtain ⟨hb, hf⟩ := hlast hall
    rw [← hb, ← hf]
    exact ⟨(hsums h).1.trans (congrArg some hprogress), (hsums h).2.trans (congrArg some hbatch)⟩

theorem counters_of_exact {past : List Report} {r : Report} (h : Exact entries parallelism past r)
    {c : Nat × Nat} (hc : r.counters = some c) :
    c.1 = total (workerCount entries parallelism) (reportedBytes (r :: past)) ∧
      c.2 = total (workerCount entries parallelism) (reportedFiles (r :: past)) := by
  rw [Report.counters] at hc
  split_ifs at hc with htype
  obtain rfl := Option.some.inj hc
  rw [h.type] at htype
  rw [Update.bytes, Update.files, h.bytes htype, h.files htype]
  exact ⟨rfl, rfl⟩

/-- Exact sums do not decrease. -/
theorem counters_pairwise {log : List Report} (h : Each (Exact entries parallelism) log) :
    (log.filterMap Report.counters).Pairwise (fun later earlier => earlier.1 ≤ later.1 ∧ earlier.2 ≤ later.2) := by
  rw [List.pairwise_filterMap]
  induction log with
  | nil => exact .nil
  | cons r past ih =>
    refine .cons (fun r' hr' c hc c' hc' => ?_) (ih h.2)
    obtain ⟨later, before, rfl⟩ := List.mem_iff_append.mp hr'
    obtain ⟨hbytes, hfiles⟩ := counters_of_exact h.1 hc
    obtain ⟨hbytes', hfiles'⟩ := counters_of_exact h.2.at hc'
    have hsuffix : (r' :: before) <:+ (r :: (later ++ r' :: before)) :=
      (List.suffix_append _ _).trans (List.suffix_cons _ _)
    rw [hbytes, hfiles, hbytes', hfiles']
    exact ⟨total_le_of_suffix _ (hsuffix.map _), total_le_of_suffix _ (hsuffix.map _)⟩

/-- In every interleaving of the updates the caller's counters never decrease, and after each of the
reports they are the sums of the largest ones reported, up to the totals. -/
theorem upload_progress {actions : List Action}
    (h : exec (Upload.step speedText entries parallelism) (Upload.new entries parallelism) actions = some s) :
    (s.log.filterMap Report.counters).Pairwise
        (fun later earlier => earlier.1 ≤ later.1 ∧ earlier.2 ≤ later.2) ∧
      ∀ later r past, s.log = later ++ r :: past → Exact entries parallelism past r := by
  have hall := exec_keeps (fun s => Counted entries parallelism s ∧ Each (Exact entries parallelism) s.log)
    (fun s a t hs hstep => ?_) ⟨Counted.new entries parallelism, trivial⟩ h
  · refine ⟨counters_pairwise hall.2, fun later r past hlog => ?_⟩
    have heach := hall.2
    rw [hlog] at heach
    exact heach.at
  · obtain ⟨r, hlog, hr⟩ := hs.1.exact hstep
    refine ⟨hs.1.step hstep, ?_⟩
    rw [hlog]
    exact ⟨hr, hs.2⟩

def twoFiles : List P2PEntry := [⟨none, ['d'], 0, true⟩, ⟨none, ['a'], 3, false⟩, ⟨none, ['b'], 2, false⟩]

def permissionAsked : Update :=
  ⟨.progress, some 0, some 0, some 0, some 0, none, none, none, none, none⟩

/-- The second batch ends first, and the preparation of the first one reports zeros after it. -/
def secondFirst : List Action :=
  [⟨1, .next, 0⟩, ⟨0, .next, 0⟩, ⟨1, .chunk 2 0, 0⟩, ⟨1, .finish 0, 0⟩, ⟨0, .extra permissionAsked, 0⟩,
    ⟨0, .next, 0⟩, ⟨0, .chunk 1 0, 0⟩, ⟨0, .chunk 2 0, 0⟩, ⟨0, .finish 0, 0⟩]

theorem upload_progress_two_files :
    ∃ s, exec (Upload.step (fun _ _ => []) twoFiles 2) (Upload.new twoFiles 2) secondFirst = some s ∧
      s.log.filterMap Report.counters = [(5, 2), (5, 1), (3, 1), (2, 1), (2, 1), (2, 0)] ∧
      (s.log.filterMap Report.counters).Pairwise
        (fun later earlier => earlier.1 ≤ later.1 ∧ earlier.2 ≤ later.2) ∧
      ∀ later r past, s.log = later ++ r :: past → Exact twoFiles 2 past r := by
  have hrun : (exec (Upload.step (fun _ _ => []) twoFiles 2) (Upload.new twoFiles 2) secondFirst).map
      (fun s => s.log.filterMap Report.counters) = some [(5, 2), (5, 1), (3, 1), (2, 1), (2, 1), (2, 0)] := by
    decide +kernel
  obtain ⟨s, hs, hcounters⟩ := Option.map_eq_some_iff.mp hrun
  exact ⟨s, hs, hcounters, upload_progress hs⟩

end OpenAdb.P2p.Aggregation

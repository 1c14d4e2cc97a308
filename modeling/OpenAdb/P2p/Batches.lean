import OpenAdb.Lib.GreedyBins
import OpenAdb.P2p.Entry
import OpenAdb.P2p.Parallelism
import Mathlib.Data.List.Sort

namespace OpenAdb.P2p.Batches

open OpenAdb.Lib OpenAdb.Lib.PyText OpenAdb.P2p.Entry OpenAdb.P2p.Parallelism

/-- Files go by decreasing size to the lightest batch, directories to the first one. -/
def uploadParallelEntries (entries : List P2PEntry) (parallelism : Nat) : List (List P2PEntry) :=
  let directories := entries.filter (·.is_directory)
  let files := regularFiles entries
  let worker_count := min parallelism files.length
  let sorted := files.insertionSort (fun a b => b.size ≤ a.size)
  let batches := (GreedyBins.fill (·.size) worker_count sorted).bins
  if directories = [] then batches else batches.modify 0 (directories ++ ·)

def selectedParallelism (u : UnicodeData) (entries : List P2PEntry)
    (parallelism_mode parallelism : PyObject) : Nat :=
  let mode := match parallelism_mode with
    | .none => .str MANUAL_PARALLELISM_MODE
    | m => m
  let preference := normalizeP2pParallelismPreference u mode parallelism
  chooseP2pParallelism u (totalFiles entries) (totalBytes entries) (largestFileBytes entries)
    preference.mode preference.manualValue

/-- The entry lists of the sessions that one upload opens. -/
def uploadEntries (u : UnicodeData) (entries : List P2PEntry)
    (parallelism_mode parallelism : PyObject) : Except Text (List (List P2PEntry)) :=
  if entries = [] then .error "No local files were selected for P2P transfer.".toList
  else
    let selected_parallelism := selectedParallelism u entries parallelism_mode parallelism
    if selected_parallelism ≤ 1 ∨ totalFiles entries ≤ 1 then .ok [entries]
    else .ok (uploadParallelEntries entries selected_parallelism)

/-- The sessions carry every entry once, there are as many as streams were
chosen, and the receiver refuses none of them for being empty. -/
def Admitted (u : UnicodeData) (entries : List P2PEntry) (parallelism_mode parallelism : PyObject)
    (batches : List (List P2PEntry)) : Prop :=
  batches.flatten.Perm entries ∧
    batches.length = selectedParallelism u entries parallelism_mode parallelism ∧
    ∀ batch ∈ batches, batch ≠ []

def preferenceOf (u : UnicodeData) (parallelism_mode parallelism : PyObject) :
    P2PParallelismPreference :=
  normalizeP2pParallelismPreference u
    (match parallelism_mode with
      | .none => .str MANUAL_PARALLELISM_MODE
      | m => m) parallelism

def nonEmptyFiles (entries : List P2PEntry) : Nat :=
  (regularFiles entries).countP (fun e => decide (0 < e.size))

/-- A manual count exceeds the number of non-empty files by at most one; in auto
mode two non-empty files do not meet the four-stream thresholds. -/
def StreamsCovered (u : UnicodeData) (entries : List P2PEntry)
    (parallelism_mode parallelism : PyObject) : Prop :=
  match preferenceOf u parallelism_mode parallelism with
  | .manual v => min v.1 (totalFiles entries) ≤ nonEmptyFiles entries + 1
  | .auto => ¬ (nonEmptyFiles entries = 2 ∧ FOUR_STREAM_MIN_FILES ≤ totalFiles entries ∧
      FOUR_STREAM_MIN_TOTAL ≤ totalBytes entries ∧
      FOUR_STREAM_MIN_AVERAGE ≤ totalBytes entries / totalFiles entries ∧
      largestFileBytes entries * 4 < totalBytes entries * 3)

theorem sum_le_countP_mul_max (sizes : List Nat) :
    sizes.sum ≤ sizes.countP (fun n => decide (0 < n)) * sizes.foldr max 0 := by
  induction sizes with
  | nil => simp
  | cons n sizes ih =>
    have hle : sizes.countP (fun n => decide (0 < n)) * sizes.foldr max 0 ≤
        sizes.countP (fun n => decide (0 < n)) * max n (sizes.foldr max 0) :=
      Nat.mul_le_mul_left _ (le_max_right _ _)
    by_cases hn : 0 < n
    · simp only [List.sum_cons, List.countP_cons, hn, decide_true, if_true, List.foldr_cons,
        Nat.add_mul, one_mul]
      have := le_max_left n (sizes.foldr max 0)
      omega
    · simp only [List.sum_cons, List.countP_cons, hn, decide_false, Bool.false_eq_true, if_false,
        List.foldr_cons, Nat.add_zero]
      omega

theorem totalBytes_le (entries : List P2PEntry) :
    totalBytes entries ≤ nonEmptyFiles entries * largestFileBytes entries := by
  have h := sum_le_countP_mul_max ((regularFiles entries).map (·.size))
  rw [List.countP_map] at h
  exact h

theorem nonEmptyFiles_le (entries : List P2PEntry) : nonEmptyFiles entries ≤ totalFiles entries :=
  List.countP_le_length

theorem selectedParallelism_eq (u : UnicodeData) (entries : List P2PEntry)
    (parallelism_mode parallelism : PyObject) :
    selectedParallelism u entries parallelism_mode parallelism =
      if totalFiles entries ≤ 1 then 1
      else
        match preferenceOf u parallelism_mode parallelism with
        | .manual v => min v.1 (totalFiles entries)
        | .auto =>
          if totalBytes entries = 0 ∨ largestFileBytes entries = 0 ∨
              largestFileBytes entries > totalBytes entries then 1
          else autoStreams (totalFiles entries) (totalBytes entries) (largestFileBytes entries) := by
  have hnat : ∀ n : Nat, nonNegativeInteger n = some n := by
    intro n
    simp [nonNegativeInteger]
  simp only [selectedParallelism, chooseP2pParallelism, normalize_preference, hnat]
  rfl

theorem autoStreams_bounds (files total largest : Nat) (hfiles : 2 ≤ files) :
    1 ≤ autoStreams files total largest ∧ autoStreams files total largest ≤ files := by
  simp only [autoStreams, P2P_AUTO_MAX_PARALLELISM, P2P_MAX_PARALLELISM]
  split_ifs <;> omega

theorem selectedParallelism_bounds (u : UnicodeData) (entries : List P2PEntry)
    (parallelism_mode parallelism : PyObject) :
    1 ≤ selectedParallelism u entries parallelism_mode parallelism ∧
      (1 < selectedParallelism u entries parallelism_mode parallelism →
        selectedParallelism u entries parallelism_mode parallelism ≤ totalFiles entries) := by
  rw [selectedParallelism_eq]
  by_cases hfew : totalFiles entries ≤ 1
  · simp [hfew]
  rw [if_neg hfew]
  cases preferenceOf u parallelism_mode parallelism with
  | manual v =>
    exact ⟨le_min v.2.1 (by omega), fun _ => min_le_right _ _⟩
  | auto =>
    have hb := autoStreams_bounds (totalFiles entries) (totalBytes entries)
      (largestFileBytes entries) (by omega)
    dsimp only
    split_ifs <;> omega

theorem autoStreams_le_four (files total largest : Nat) : autoStreams files total largest ≤ 4 := by
  simp only [autoStreams, P2P_AUTO_MAX_PARALLELISM, P2P_MAX_PARALLELISM]
  omega

theorem autoStreams_le_two (files : Nat) {total largest : Nat} (hbig : total * 3 ≤ largest * 4) :
    autoStreams files total largest ≤ 2 := by
  simp only [autoStreams, P2P_AUTO_MAX_PARALLELISM, P2P_MAX_PARALLELISM, ge_iff_le, hbig, if_true]
  omega

/-- Four streams are planned exactly above all three thresholds and without a
dominant file. -/
theorem autoStreams_le_three_iff (files total largest : Nat) :
    autoStreams files total largest ≤ 3 ↔
      ¬ (FOUR_STREAM_MIN_FILES ≤ files ∧ FOUR_STREAM_MIN_TOTAL ≤ total ∧
        FOUR_STREAM_MIN_AVERAGE ≤ total / files ∧ largest * 4 < total * 3) := by
  by_cases hbig : total * 3 ≤ largest * 4
  · have h := autoStreams_le_two files hbig
    exact iff_of_true (by omega) (by omega)
  by_cases hfour : FOUR_STREAM_MIN_FILES ≤ files ∧ FOUR_STREAM_MIN_TOTAL ≤ total ∧
      FOUR_STREAM_MIN_AVERAGE ≤ total / files
  · have hfiles : 24 ≤ files := hfour.1
    refine iff_of_false ?_ (fun h => h ⟨hfour.1, hfour.2.1, hfour.2.2, by omega⟩)
    simp only [autoStreams, P2P_AUTO_MAX_PARALLELISM, P2P_MAX_PARALLELISM, ge_iff_le, hbig,
      hfour, and_self, if_true, if_false]
    omega
  · refine iff_of_true ?_ (fun h => hfour ⟨h.1, h.2.1, h.2.2.1⟩)
    simp only [autoStreams, P2P_AUTO_MAX_PARALLELISM, P2P_MAX_PARALLELISM, ge_iff_le, hbig,
      hfour, if_false]
    split_ifs <;> omega

/-- The planned number of streams leaves at most one stream to the empty files. -/
theorem selectedParallelism_le_iff (u : UnicodeData) (entries : List P2PEntry)
    (parallelism_mode parallelism : PyObject) :
    selectedParallelism u entries parallelism_mode parallelism ≤ nonEmptyFiles entries + 1 ↔
      StreamsCovered u entries parallelism_mode parallelism := by
  have hbytes := totalBytes_le entries
  have hcount := nonEmptyFiles_le entries
  rw [selectedParallelism_eq]
  unfold StreamsCovered
  cases preferenceOf u parallelism_mode parallelism with
  | manual v =>
    dsimp only
    split_ifs with hfew
    · refine iff_of_true (by omega) ((min_le_right _ _).trans ?_)
      omega
    · rfl
  | auto =>
    dsimp only
    have h4 := autoStreams_le_four (totalFiles entries) (totalBytes entries)
      (largestFileBytes entries)
    have h3 := autoStreams_le_three_iff (totalFiles entries) (totalBytes entries)
      (largestFileBytes entries)
    by_cases hfew : totalFiles entries ≤ 1
    · rw [if_pos hfew]
      exact iff_of_true (by omega) (by omega)
    rw [if_neg hfew]
    by_cases hnone : totalBytes entries = 0 ∨ largestFileBytes entries = 0 ∨
        largestFileBytes entries > totalBytes entries
    · rw [if_pos hnone]
      refine iff_of_true (by omega) (fun h => ?_)
      have hlarge := h.2.2.2.2
      have htotal : 256 * (1024 * 1024) ≤ totalBytes entries := h.2.2.1
      obtain h0 | h0 | h0 := hnone
      · omega
      · rw [h0, Nat.mul_zero] at hbytes
        omega
      · omega
    rw [if_neg hnone]
    obtain hP | hP | hP | hP : nonEmptyFiles entries = 0 ∨ nonEmptyFiles entries = 1 ∨
        nonEmptyFiles entries = 2 ∨ 3 ≤ nonEmptyFiles entries := by omega
    · rw [hP] at hbytes
      omega
    · rw [hP] at hbytes
      have hbig : totalBytes entries * 3 ≤ largestFileBytes entries * 4 := by omega
      have h2 := autoStreams_le_two (totalFiles entries) hbig
      exact iff_of_true (by omega) (by omega)
    · simpa [hP] using h3
    · exact iff_of_true (by omega) (by omega)

theorem sorted_files (files : List P2PEntry) :
    (files.insertionSort (fun a b => b.size ≤ a.size)).Pairwise (fun a b => b.size ≤ a.size) := by
  have : Std.Total (fun a b : P2PEntry => b.size ≤ a.size) := ⟨fun a b => Nat.le_total b.size a.size⟩
  have : IsTrans P2PEntry (fun a b => b.size ≤ a.size) := ⟨fun a b c h1 h2 => h2.trans h1⟩
  exact List.pairwise_insertionSort _ files

theorem directories_perm (entries : List P2PEntry) :
    (entries.filter (·.is_directory) ++ regularFiles entries).Perm entries :=
  List.filter_append_perm _ entries

theorem modify_zero_perm (directories : List P2PEntry) (batches : List (List P2PEntry))
    (h : batches ≠ []) :
    (batches.modify 0 (directories ++ ·)).flatten.Perm (directories ++ batches.flatten) := by
  cases batches with
  | nil => exact absurd rfl h
  | cons b batches => simp

theorem modify_zero_nonempty_iff (directories : List P2PEntry) (batches : List (List P2PEntry))
    (h : ∀ b, batches.head? = some b → b ≠ []) :
    (∀ b ∈ batches.modify 0 (directories ++ ·), b ≠ []) ↔ ∀ b ∈ batches, b ≠ [] := by
  cases batches with
  | nil => simp
  | cons b batches =>
    have hb := h b rfl
    simp [hb]

/-- What the parallel path guarantees for every input, and when no batch is empty. -/
theorem uploadParallelEntries_spec (entries : List P2PEntry) (parallelism : Nat)
    (hp : 1 < parallelism) (hfiles : parallelism ≤ totalFiles entries) :
    (uploadParallelEntries entries parallelism).flatten.Perm entries ∧
      (uploadParallelEntries entries parallelism).length = parallelism ∧
      ((∀ b ∈ uploadParallelEntries entries parallelism, b ≠ []) ↔
        parallelism ≤ nonEmptyFiles entries + 1) := by
  have hw : min parallelism (regularFiles entries).length = parallelism := min_eq_left hfiles
  let sorted := (regularFiles entries).insertionSort (fun a b => b.size ≤ a.size)
  have hsort : sorted.Perm (regularFiles entries) := List.perm_insertionSort _ _
  obtain ⟨hperm, hlen⟩ := GreedyBins.fill_perm P2PEntry.size (by omega : 0 < parallelism) sorted
  have hne := GreedyBins.fill_nonempty_iff P2PEntry.size (w := parallelism) sorted
    (sorted_files _) (by rw [hsort.length_eq]; exact hfiles)
  rw [hsort.countP_eq] at hne
  have hdef : uploadParallelEntries entries parallelism =
      if entries.filter (·.is_directory) = [] then
        (GreedyBins.fill P2PEntry.size parallelism sorted).bins
      else (GreedyBins.fill P2PEntry.size parallelism sorted).bins.modify 0
        (entries.filter (·.is_directory) ++ ·) := by
    simp only [uploadParallelEntries, hw]
    rfl
  have hdirs := directories_perm entries
  have hall := hperm.trans hsort
  rw [hdef]
  split_ifs with hd
  · rw [hd, List.nil_append] at hdirs
    exact ⟨hall.trans hdirs, hlen, hne⟩
  · have hbins : (GreedyBins.fill P2PEntry.size parallelism sorted).bins ≠ [] := by
      intro h
      simp [h] at hlen
      omega
    refine ⟨?_, by simpa using hlen, ?_⟩
    · exact (modify_zero_perm _ _ hbins).trans ((hall.append_left _).trans hdirs)
    · rw [modify_zero_nonempty_iff, hne]
      · rfl
      · apply GreedyBins.fill_head
        intro h
        have hl := hsort.length_eq
        rw [h, List.length_nil] at hl
        have hf : totalFiles entries = (regularFiles entries).length := rfl
        omega

/-- The sessions of an upload are admitted exactly when the empty files never
have to keep two streams busy. -/
theorem sessions_admitted_iff (u : UnicodeData) (entries : List P2PEntry) (hne : entries ≠ [])
    (parallelism_mode parallelism : PyObject) :
    ∃ batches, uploadEntries u entries parallelism_mode parallelism = .ok batches ∧
      (Admitted u entries parallelism_mode parallelism batches ↔
        StreamsCovered u entries parallelism_mode parallelism) := by
  have hb := selectedParallelism_bounds u entries parallelism_mode parallelism
  rw [← selectedParallelism_le_iff]
  unfold uploadEntries Admitted
  rw [if_neg hne]
  dsimp only
  split_ifs with hone
  · refine ⟨[entries], rfl, iff_of_true ?_ (by omega)⟩
    exact ⟨by simp, by simp; omega, by simpa using hne⟩
  · obtain ⟨hperm, hlen, hiff⟩ := uploadParallelEntries_spec entries
      (selectedParallelism u entries parallelism_mode parallelism) (by omega) (by omega)
    exact ⟨_, rfl, by rw [← hiff]; exact ⟨fun h => h.2.2, fun h => ⟨hperm, hlen, h⟩⟩⟩

/-- Two files of which one is empty still give each of two streams an entry. -/
theorem sessions_admitted_two_files :
    Admitted .ascii [⟨none, ['a'], 5, false⟩, ⟨none, ['b'], 0, false⟩] .none (.index 2)
      [[⟨none, ['a'], 5, false⟩], [⟨none, ['b'], 0, false⟩]] := by
  obtain ⟨batches, hb, hiff⟩ := sessions_admitted_iff .ascii
    [⟨none, ['a'], 5, false⟩, ⟨none, ['b'], 0, false⟩] (by decide) .none (.index 2)
  have hrun : uploadEntries .ascii [⟨none, ['a'], 5, false⟩, ⟨none, ['b'], 0, false⟩] .none
      (.index 2) = .ok [[⟨none, ['a'], 5, false⟩], [⟨none, ['b'], 0, false⟩]] := by rfl
  rw [hrun] at hb
  rw [Except.ok.inj hb]
  exact hiff.mpr (show min 2 2 ≤ 1 + 1 by decide)

/-- Two empty files under a manual choice of two streams leave a session without entries. -/
theorem empty_session_opened :
    ∃ batches, uploadEntries .ascii [⟨none, ['a'], 0, false⟩, ⟨none, ['b'], 0, false⟩] .none
        (.index 2) = .ok batches ∧ [] ∈ batches ∧
      ¬ Admitted .ascii [⟨none, ['a'], 0, false⟩, ⟨none, ['b'], 0, false⟩] .none (.index 2)
        batches := by
  refine ⟨[[⟨none, ['a'], 0, false⟩, ⟨none, ['b'], 0, false⟩], []], by rfl, by decide, ?_⟩
  exact fun h => h.2.2 [] (by decide) rfl

end OpenAdb.P2p.Batches

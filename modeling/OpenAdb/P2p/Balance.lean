import OpenAdb.Lib.LongestFirst
import OpenAdb.P2p.Batches

namespace OpenAdb.P2p.Batches

open OpenAdb.Lib OpenAdb.Lib.GreedyBins OpenAdb.P2p.Entry

/-- The size of the files of the heaviest batch. -/
def heaviest (batches : List (List P2PEntry)) : Nat := (batches.map totalBytes).foldr max 0

theorem totalBytes_le_heaviest {batches : List (List P2PEntry)} {batch : List P2PEntry}
    (h : batch ∈ batches) : totalBytes batch ≤ heaviest batches := by
  induction batches with
  | nil => cases h
  | cons b batches ih =>
    rw [heaviest, List.map_cons, List.foldr_cons]
    obtain rfl | h := List.mem_cons.mp h
    · exact le_max_left _ _
    · exact (ih h).trans (le_max_right _ _)

theorem heaviest_le {batches : List (List P2PEntry)} {c d t : Nat}
    (h : ∀ batch ∈ batches, c * totalBytes batch ≤ d * t) : c * heaviest batches ≤ d * t := by
  induction batches with
  | nil => exact Nat.zero_le _
  | cons b batches ih =>
    rw [heaviest, List.map_cons, List.foldr_cons]
    obtain hmax | hmax := max_choice (totalBytes b) ((batches.map totalBytes).foldr max 0)
    · rw [hmax]
      exact h b List.mem_cons_self
    · rw [hmax]
      exact ih fun b' hb' => h b' (List.mem_cons_of_mem _ hb')

theorem totalBytes_files {batch : List P2PEntry} (h : ∀ e ∈ batch, e.is_directory = false) :
    totalBytes batch = total (·.size) batch := by
  have hfiles : regularFiles batch = batch :=
    List.filter_eq_self.mpr fun e he => by rw [h e he]; rfl
  rw [totalBytes, hfiles]
  rfl

theorem totalBytes_directories (directories batch : List P2PEntry)
    (h : ∀ e ∈ directories, e.is_directory = true) : totalBytes (directories ++ batch) = totalBytes batch := by
  have hnone : regularFiles directories = [] :=
    List.filter_eq_nil_iff.mpr fun e he => by rw [h e he]; exact Bool.false_ne_true
  have happend : regularFiles (directories ++ batch) = regularFiles directories ++ regularFiles batch :=
    List.filter_append ..
  rw [totalBytes, totalBytes, happend, hnone, List.nil_append]

/-- The directories add nothing to the batch that they join. -/
theorem totalBytes_uploadParallelEntries {entries : List P2PEntry} {parallelism : Nat} {batch : List P2PEntry}
    (h : batch ∈ uploadParallelEntries entries parallelism) :
    ∃ b ∈ (fill (·.size) (min parallelism (regularFiles entries).length)
        ((regularFiles entries).insertionSort (fun a b => b.size ≤ a.size))).bins,
      totalBytes batch = totalBytes b := by
  rw [uploadParallelEntries] at h
  split_ifs at h with hdirectories
  · exact ⟨batch, h, rfl⟩
  · obtain h | ⟨b, hb, rfl⟩ := mem_modify h
    · exact ⟨batch, h, rfl⟩
    · refine ⟨b, List.mem_of_getElem? hb, totalBytes_directories _ b fun e he => ?_⟩
      exact (List.mem_filter.mp he).2

def fileOfSize (size : Nat) : P2PEntry := ⟨none, [], size, false⟩

end OpenAdb.P2p.Batches

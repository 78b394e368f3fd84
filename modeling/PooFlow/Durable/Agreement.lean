import PooFlow.Durable.Checkpointers
import PooFlow.Foundation.Rows

namespace PooFlow

open Foundation List Function

variable {V : Type}

def lastSaved (saved : List (RuntimeGraphCheckpoint V)) (checkpointId : String) :
    Option (RuntimeGraphCheckpoint V) :=
  saved.reverse.find? (·.checkpointId = checkpointId)

@[simp] theorem lastSaved_nil (checkpointId : String) :
    lastSaved ([] : List (RuntimeGraphCheckpoint V)) checkpointId = none := rfl

theorem lastSaved_concat (saved : List (RuntimeGraphCheckpoint V))
    (checkpoint : RuntimeGraphCheckpoint V) (checkpointId : String) :
    lastSaved (saved ++ [checkpoint]) checkpointId =
      if checkpointId = checkpoint.checkpointId then some checkpoint
      else lastSaved saved checkpointId := by
  rw [lastSaved, reverse_append, reverse_singleton, singleton_append, List.find?_cons]
  by_cases hsame : checkpoint.checkpointId = checkpointId
  · simp [hsame]
  · simp [hsame, Ne.symm hsame, lastSaved]

variable {saved : List (RuntimeGraphCheckpoint V)} {checkpoint : RuntimeGraphCheckpoint V}

variable {checkpointId : String}

theorem lastSaved_eq_some (h : lastSaved saved checkpointId = some checkpoint) :
    checkpoint.checkpointId = checkpointId ∧ checkpoint ∈ saved :=
  ⟨by simpa using List.find?_some h, mem_reverse.1 (mem_of_find?_eq_some h)⟩

theorem lastSaved_isSome : (lastSaved saved checkpointId).isSome = true ↔
      checkpointId ∈ saved.map (·.checkpointId) := by
  simp [lastSaved]

/-- Among distinct ids, the last checkpoint saved under an id is the only one. -/
theorem lastSaved_of_nodup (hdistinct : (saved.map (·.checkpointId)).Nodup) (checkpointId : String)
    : lastSaved saved checkpointId = saved.find? (·.checkpointId = checkpointId) := by
  induction saved using List.reverseRecOn with
  | nil => rfl
  | append_singleton saved checkpoint ih =>
    rw [map_append, nodup_append] at hdistinct
    rw [lastSaved_concat, List.find?_append, ih hdistinct.1]
    by_cases hsame : checkpointId = checkpoint.checkpointId
    · subst hsame
      have hnone : saved.find? (·.checkpointId = checkpoint.checkpointId) = none := by
        rw [List.find?_eq_none]
        intro other hother
        simpa using hdistinct.2.2 _ (mem_map_of_mem hother) _ (by simp)
      simp [hnone]
    · simp [hsame, Ne.symm hsame]

/-- The last checkpoints of the ids, in the order of a rank of the ids. -/
structure LatestBy (rank : String → String) (saved listed : List (RuntimeGraphCheckpoint V)) :
    Prop where
  ascending : listed.Pairwise fun checkpoint checkpoint' =>
    rank checkpoint.checkpointId < rank checkpoint'.checkpointId
  mem : ∀ checkpoint, checkpoint ∈ listed ↔
    lastSaved saved checkpoint.checkpointId = some checkpoint

theorem LatestBy.eq_iff {rank : String → String} {listed : List (RuntimeGraphCheckpoint V)}
    (h : LatestBy rank saved listed) : listed = saved ↔ saved.Pairwise fun checkpoint checkpoint' =>
      rank checkpoint.checkpointId < rank checkpoint'.checkpointId := by
  constructor
  · rintro rfl
    exact h.ascending
  · intro hascending
    have hdistinct : (saved.map (·.checkpointId)).Nodup :=
      pairwise_map.2 (hascending.imp fun hlt heq => hlt.ne (congrArg rank heq))
    refine Keyed.eq_of_sorted (fun checkpoint => rank checkpoint.checkpointId) h.ascending
      hascending fun checkpoint => ?_
    rw [h.mem, lastSaved_of_nodup hdistinct]
    constructor
    · exact fun hfound => mem_of_find?_eq_some hfound
    · exact fun hsaved => find?_key hdistinct hsaved

namespace MemoryRuntimeGraphCheckpointer

section

variable (memory : MemoryRuntimeGraphCheckpointer V) (freshId : String)
  (checkpoint : RuntimeGraphCheckpoint V) (threadId other : String)

@[simp] theorem checkpoints_save : (memory.save freshId checkpoint).2.checkpoints other =
    if other = checkpoint.threadId then some (checkpoint.identified freshId)
    else memory.checkpoints other := by
  simp [save, update_apply]

@[simp] theorem histories_save : (memory.save freshId checkpoint).2.histories other =
    if other = checkpoint.threadId then
      memory.histories other ++ [checkpoint.identified freshId]
    else memory.histories other := by
  simp only [save, update_apply, RuntimeGraphCheckpoint.identified_threadId]
  split
  · next hsame => rw [hsame]
  · rfl

@[simp] theorem checkpoints_clear : (memory.clear threadId).checkpoints other =
    if other = threadId then none else memory.checkpoints other := by
  simp [clear, update_apply]

@[simp] theorem histories_clear : (memory.clear threadId).histories other =
    if other = threadId then [] else memory.histories other := by
  simp [clear, update_apply]

end

structure Consistent (memory : MemoryRuntimeGraphCheckpointer V) : Prop where
  latest : ∀ threadId, memory.checkpoints threadId = (memory.histories threadId).getLast?
  thread : ∀ threadId, ∀ checkpoint ∈ memory.histories threadId, checkpoint.threadId = threadId

variable {memory : MemoryRuntimeGraphCheckpointer V} {threadId : String}

theorem Consistent.threadId_of_latest (h : memory.Consistent)
    (hlatest : memory.checkpoints threadId = some checkpoint) : checkpoint.threadId = threadId :=
  h.thread threadId checkpoint (mem_of_getLast? ((h.latest threadId).symm.trans hlatest))

theorem Consistent.save (h : memory.Consistent) (freshId : String)
    (checkpoint : RuntimeGraphCheckpoint V) : (memory.save freshId checkpoint).2.Consistent := by
  constructor
  · intro threadId
    rw [checkpoints_save, histories_save]
    split
    · rw [List.getLast?_concat]
    · exact h.latest threadId
  · intro threadId saved hsaved
    rw [histories_save] at hsaved
    split at hsaved
    · next hthread =>
      rcases mem_append.1 hsaved with hbefore | hnew
      · exact h.thread threadId saved hbefore
      · rw [mem_singleton.1 hnew, RuntimeGraphCheckpoint.identified_threadId, hthread]
    · exact h.thread threadId saved hsaved

theorem Consistent.clear (h : memory.Consistent) (threadId : String) :
    (memory.clear threadId).Consistent := by
  constructor
  · intro other
    rw [checkpoints_clear, histories_clear]
    split
    · rfl
    · exact h.latest other
  · intro other saved hsaved
    rw [histories_clear] at hsaved
    split at hsaved
    · exact absurd hsaved not_mem_nil
    · exact h.thread other saved hsaved

end MemoryRuntimeGraphCheckpointer

/-- An id that names a file in a directory, with the suffix of its file. -/
def PlainName (checkpointId : String) : Prop :=
  '/' ∉ checkpointId.toList ∧ '\x00' ∉ checkpointId.toList ∧ checkpointId.utf8ByteSize ≤ 237

instance : DecidablePred PlainName := fun checkpointId =>
  inferInstanceAs (Decidable ('/' ∉ checkpointId.toList ∧ '\x00' ∉ checkpointId.toList ∧
    checkpointId.utf8ByteSize ≤ 237))

theorem PlainName.direct (h : PlainName checkpointId) :
    Direct (checkpointId ++ ".checkpoint.pickle") := by
  rw [Direct, String.toList_append, mem_append, not_or]
  exact ⟨h.1, by decide⟩

namespace FileRuntimeGraphCheckpointer

variable {sha256 : String → String} {threads : Set String}

variable {threadId other : String}

section

variable (hdigest : Set.InjOn sha256 threads) (hthread : threadId ∈ threads)
  (hother : other ∈ threads)

include hdigest hthread hother

theorem path_inj : path sha256 other = path sha256 threadId ↔ other = threadId := by
  rw [path, path, String.append_left_inj]
  exact hdigest.eq_iff hother hthread

theorem historyDir_inj :
    historyDir sha256 other = historyDir sha256 threadId ↔ other = threadId := by
  rw [historyDir, historyDir, String.append_left_inj]
  exact hdigest.eq_iff hother hthread

theorem historyPath_inj (checkpointId otherId : String) :
    historyPath sha256 other otherId = historyPath sha256 threadId checkpointId ↔
      other = threadId ∧ otherId = checkpointId := by
  rw [historyPath, historyPath, Prod.mk.injEq, historyDir_inj hdigest hthread hother,
    String.append_left_inj]

end

structure Holds (sha256 : String → String) (threads : Set String)
    (memory : MemoryRuntimeGraphCheckpointer V) (files : FileRuntimeGraphCheckpointer V) :
    Prop where
  head : ∀ threadId ∈ threads,
    files.heads.find? (path sha256 threadId) = memory.checkpoints threadId
  file : ∀ threadId ∈ threads, ∀ checkpointId,
    files.files.find? (historyPath sha256 threadId checkpointId) =
      lastSaved (memory.histories threadId) checkpointId
  named : ∀ row ∈ files.files.rows, ∃ threadId ∈ threads, ∃ checkpointId,
    PlainName checkpointId ∧ row.1 = historyPath sha256 threadId checkpointId

variable {memory : MemoryRuntimeGraphCheckpointer V} {files : FileRuntimeGraphCheckpointer V}

variable {threadId : String}

section

variable (h : Holds sha256 threads memory files)

include h

theorem Holds.load (hthread : threadId ∈ threads) :
    files.load sha256 threadId = memory.load threadId := by
  rw [FileRuntimeGraphCheckpointer.load, h.head threadId hthread]
  rfl

theorem Holds.save (hdigest : Set.InjOn sha256 threads) (freshId : String)
    (checkpoint : RuntimeGraphCheckpoint V) (hthread : checkpoint.threadId ∈ threads)
    (hplain : PlainName (checkpoint.identified freshId).checkpointId) :
    Holds sha256 threads (memory.save freshId checkpoint).2
      (files.save sha256 freshId checkpoint).2 := by
  constructor
  · intro threadId hmem
    rw [MemoryRuntimeGraphCheckpointer.checkpoints_save]
    show (files.heads.put _ _).find? _ = _
    rw [Keyed.find?_put, RuntimeGraphCheckpoint.identified_threadId]
    simp only [path_inj hdigest hthread hmem, h.head threadId hmem]
  · intro threadId hmem checkpointId
    rw [MemoryRuntimeGraphCheckpointer.histories_save]
    show (files.files.put _ _).find? _ = _
    rw [Keyed.find?_put, RuntimeGraphCheckpoint.identified_threadId]
    simp only [historyPath_inj hdigest hthread hmem, h.file threadId hmem]
    by_cases hsame : threadId = checkpoint.threadId
    · simp only [hsame, true_and, if_true, lastSaved_concat]
    · simp only [hsame, false_and, if_false]
  · intro row hrow
    rcases Keyed.mem_put.1 hrow with hbefore | rfl
    · exact h.named row hbefore.1
    · refine ⟨checkpoint.threadId, hthread, _, hplain, ?_⟩
      rw [RuntimeGraphCheckpoint.identified_threadId]

theorem Holds.listed {row} (hrow : row ∈ files.files.rows)
    (hdir : row.1.1 = historyDir sha256 threadId) : Listed sha256 threadId row.1 := by
  obtain ⟨_, _, checkpointId, hplain, hrow⟩ := h.named row hrow
  refine ⟨hdir, ?_⟩
  rw [hrow]
  exact PlainName.direct hplain

/-- **The history on files**: the last checkpoint of each id, by the name of its file. -/
theorem Holds.history (hdigest : Set.InjOn sha256 threads) (hthread : threadId ∈ threads) :
    LatestBy (· ++ ".checkpoint.pickle") (memory.histories threadId)
      (files.history sha256 threadId) := by
  -- a file of the directory is named after the id of the checkpoint in it
  have hfile : ∀ row ∈ files.files.rows, row.1.1 = historyDir sha256 threadId →
      lastSaved (memory.histories threadId) row.2.checkpointId = some row.2 ∧
        row.1 = historyPath sha256 threadId row.2.checkpointId := by
    intro row hrow hdir
    obtain ⟨other, hother, checkpointId, _, hpath⟩ := h.named row hrow
    rw [hpath] at hdir
    obtain rfl := (historyDir_inj hdigest hthread hother).1 hdir
    have hfound : files.files.find? row.1 = some row.2 := Keyed.find?_eq_some.2 hrow
    rw [hpath, h.file other hother] at hfound
    obtain ⟨rfl, _⟩ := lastSaved_eq_some hfound
    exact ⟨hfound, hpath⟩
  constructor
  · refine pairwise_map.2 (List.Pairwise.imp_of_mem ?_ (Keyed.pairwise_select ?_))
    · intro row row' hrow hrow' hlt
      obtain ⟨hrow, hlisted⟩ := Keyed.mem_select.1 hrow
      obtain ⟨hrow', hlisted'⟩ := Keyed.mem_select.1 hrow'
      rw [(hfile row hrow hlisted.1).2, (hfile row' hrow' hlisted'.1).2] at hlt
      exact hlt
    · intro key key' hkey hkey' hname
      exact Prod.ext (hkey.1.trans hkey'.1.symm) hname
  · intro checkpoint
    constructor
    · intro hlisted
      obtain ⟨row, hselected, rfl⟩ := mem_map.1 hlisted
      obtain ⟨hrow, hlisted⟩ := Keyed.mem_select.1 hselected
      exact (hfile row hrow hlisted.1).1
    · intro hsaved
      rw [← h.file threadId hthread] at hsaved
      have hrow := Keyed.find?_eq_some.1 hsaved
      exact mem_map.2 ⟨_, Keyed.mem_select.2 ⟨hrow, h.listed hrow rfl⟩, rfl⟩

theorem Holds.clear (hdigest : Set.InjOn sha256 threads) (hthread : threadId ∈ threads) :
    (files.clear sha256 threadId).1 = .ok () ∧
      Holds sha256 threads (memory.clear threadId) (files.clear sha256 threadId).2 := by
  refine ⟨?_, ?_, ?_, ?_⟩
  · rw [FileRuntimeGraphCheckpointer.clear, guardElse_eq_ok]
    intro row hrow hdir
    obtain ⟨hbefore, hkept⟩ := Keyed.mem_delete.1 hrow
    exact hkept (h.listed hbefore hdir)
  · intro other hmem
    rw [MemoryRuntimeGraphCheckpointer.checkpoints_clear]
    show (files.heads.delete _).find? _ = _
    rw [Keyed.find?_delete]
    simp only [path_inj hdigest hthread hmem, h.head other hmem]
  · intro other hmem checkpointId
    rw [MemoryRuntimeGraphCheckpointer.histories_clear]
    show (files.files.delete _).find? _ = _
    rw [Keyed.find?_delete, h.file other hmem]
    by_cases hsame : other = threadId
    · subst hsame
      rw [if_pos rfl, lastSaved_nil]
      split
      · rfl
      · next hkept =>
        -- a file that is left is not in the directory, so the id was never saved
        rw [← h.file other hmem, ← Option.not_isSome_iff_eq_none]
        intro hsome
        obtain ⟨checkpoint, hfound⟩ := Option.isSome_iff_exists.1 hsome
        exact hkept (h.listed (Keyed.find?_eq_some.1 hfound) rfl)
    · rw [if_neg hsame, if_neg fun hlisted =>
        hsame ((historyDir_inj hdigest hthread hmem).1 hlisted.1)]
  · intro row hrow
    exact h.named row (Keyed.mem_delete.1 hrow).1

end

end FileRuntimeGraphCheckpointer

namespace TursoRuntimeGraphCheckpointer

structure Holds (memory : MemoryRuntimeGraphCheckpointer V)
    (turso : TursoRuntimeGraphCheckpointer V) : Prop where
  head : ∀ threadId, turso.heads.find? threadId = (memory.checkpoints threadId).map (·.checkpointId)
  row : ∀ threadId checkpointId, (turso.checkpoints.find? (threadId, checkpointId)).map Prod.fst =
      lastSaved (memory.histories threadId) checkpointId

variable {memory : MemoryRuntimeGraphCheckpointer V} {turso : TursoRuntimeGraphCheckpointer V}

theorem Holds.loadAt (h : Holds memory turso) (threadId checkpointId : String) :
    turso.loadAt threadId checkpointId =
      presentElse (lastSaved (memory.histories threadId) checkpointId)
        (.checkpoint s!"missing checkpoint {checkpointId} for thread {threadId}") := by
  rw [TursoRuntimeGraphCheckpointer.loadAt, h.row]

theorem lastSaved_latest {saved : List (RuntimeGraphCheckpoint V)}
    (h : saved.getLast? = some checkpoint) :
    lastSaved saved checkpoint.checkpointId = some checkpoint := by
  obtain ⟨before, rfl⟩ := List.getLast?_eq_some_iff.1 h
  rw [lastSaved_concat, if_pos rfl]

theorem Holds.load (h : Holds memory turso) (hmemory : memory.Consistent) (threadId : String) :
    turso.load threadId = presentElse (memory.checkpoints threadId)
      (.checkpoint s!"missing checkpoint for thread {threadId}") := by
  rw [TursoRuntimeGraphCheckpointer.load, h.head]
  cases hlatest : memory.checkpoints threadId with
  | none => rfl
  | some checkpoint =>
    show turso.loadAt threadId checkpoint.checkpointId = .ok checkpoint
    rw [h.loadAt, lastSaved_latest ((hmemory.latest threadId).symm.trans hlatest)]
    rfl

theorem Holds.store (h : Holds memory turso) (freshId : String) (now : ℕ)
    (checkpoint : RuntimeGraphCheckpoint V) : Holds (memory.save freshId checkpoint).2
      (turso.store now (checkpoint.identified freshId)) := by
  constructor
  · intro threadId
    rw [MemoryRuntimeGraphCheckpointer.checkpoints_save]
    show (turso.heads.put _ _).find? _ = _
    rw [Keyed.find?_put, RuntimeGraphCheckpoint.identified_threadId, h.head]
    split <;> rfl
  · intro threadId checkpointId
    rw [MemoryRuntimeGraphCheckpointer.histories_save]
    show ((turso.checkpoints.put _ _).find? _).map _ = _
    rw [Keyed.find?_put, RuntimeGraphCheckpoint.identified_threadId]
    simp only [Prod.mk.injEq]
    by_cases hsame : threadId = checkpoint.threadId
    · simp only [hsame, true_and, if_true, lastSaved_concat, ← h.row]
      split <;> rfl
    · simp only [hsame, false_and, if_false, h.row]

theorem Holds.clear (h : Holds memory turso) (threadId : String) :
    Holds (memory.clear threadId) (turso.clear threadId) := by
  constructor
  · intro other
    rw [MemoryRuntimeGraphCheckpointer.checkpoints_clear]
    show (turso.heads.delete _).find? _ = _
    rw [Keyed.find?_delete, h.head]
    split <;> rfl
  · intro other checkpointId
    rw [MemoryRuntimeGraphCheckpointer.histories_clear]
    show ((turso.checkpoints.delete _).find? _).map _ = _
    rw [Keyed.find?_delete]
    simp only
    split
    · rfl
    · exact h.row other checkpointId

theorem Holds.mem_rowsOf (h : Holds memory turso) :
    checkpointId ∈ (turso.rowsOf threadId).map (·.1.2) ↔
      checkpointId ∈ (memory.histories threadId).map (·.checkpointId) := by
  rw [← lastSaved_isSome, ← h.row, Option.isSome_map, Option.isSome_iff_exists, mem_map]
  constructor
  · rintro ⟨row, hselected, rfl⟩
    obtain ⟨hrow, rfl⟩ := Keyed.mem_select.1 hselected
    exact ⟨row.2, Keyed.find?_eq_some.2 hrow⟩
  · rintro ⟨value, hvalue⟩
    exact ⟨_, Keyed.mem_select.2 ⟨Keyed.find?_eq_some.1 hvalue, rfl⟩, rfl⟩

theorem rowsOf_ascending (turso : TursoRuntimeGraphCheckpointer V) (threadId : String) :
    (turso.rowsOf threadId).Pairwise fun row row' => row.1.2 < row'.1.2 := by
  apply Keyed.pairwise_select
  intro key key' hkey hkey' hid
  exact Prod.ext (hkey.trans hkey'.symm) hid

/-- **The history in Turso**: the last checkpoint of each id, by the id. -/
theorem Holds.history (h : Holds memory turso) (threadId : String) :
    LatestBy id (memory.histories threadId) (turso.history threadId) := by
  -- the id of a row is the id in its payload
  have hrow : ∀ row ∈ turso.checkpoints.rows, row.1.1 = threadId →
      lastSaved (memory.histories threadId) row.2.1.checkpointId = some row.2.1 ∧
        row.1.2 = row.2.1.checkpointId := by
    rintro row hrow rfl
    have hfound := h.row row.1.1 row.1.2
    rw [Keyed.find?_eq_some.2 hrow] at hfound
    have hid := (lastSaved_eq_some hfound.symm).1
    exact ⟨by rw [hid]; exact hfound.symm, hid.symm⟩
  constructor
  · refine pairwise_map.2 ((rowsOf_ascending turso threadId).imp_of_mem ?_)
    intro row row' hselected hselected' hlt
    obtain ⟨hmem, hthread⟩ := Keyed.mem_select.1 hselected
    obtain ⟨hmem', hthread'⟩ := Keyed.mem_select.1 hselected'
    rw [(hrow row hmem hthread).2, (hrow row' hmem' hthread').2] at hlt
    exact hlt
  · intro checkpoint
    constructor
    · intro hlisted
      obtain ⟨row, hselected, rfl⟩ := mem_map.1 hlisted
      obtain ⟨hmem, hthread⟩ := Keyed.mem_select.1 hselected
      exact (hrow row hmem hthread).1
    · intro hsaved
      rw [← h.row] at hsaved
      obtain ⟨value, hvalue, rfl⟩ := Option.map_eq_some_iff.1 hsaved
      exact mem_map.2
        ⟨_, Keyed.mem_select.2 ⟨Keyed.find?_eq_some.1 hvalue, rfl⟩, rfl⟩

theorem Holds.length_rowsOf (h : Holds memory turso) (threadId : String) :
    (turso.rowsOf threadId).length =
      ((memory.histories threadId).map (·.checkpointId)).dedup.length := by
  have hdistinct : ((turso.rowsOf threadId).map (·.1.2)).Nodup :=
    pairwise_map.2 ((rowsOf_ascending turso threadId).imp fun hlt => hlt.ne)
  rw [← length_map (·.1.2)]
  refine List.Perm.length_eq ((perm_ext_iff_of_nodup hdistinct (nodup_dedup _)).2 ?_)
  intro checkpointId
  rw [mem_dedup, h.mem_rowsOf]

theorem enforceRetention_of_le (h : ∀ limit, turso.policy.historyRetentionLimit = some limit →
      (turso.rowsOf threadId).length ≤ limit) : turso.enforceRetention threadId = turso := by
  rw [enforceRetention]
  cases hlimit : turso.policy.historyRetentionLimit with
  | none => rfl
  | some limit =>
    simp only
    rw [drop_of_length_le (by rw [length_insertionSort]; exact h limit hlimit)]
    simp [Keyed.delete]

end TursoRuntimeGraphCheckpointer

end PooFlow

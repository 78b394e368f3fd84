import PooFlow.Durable.Agreement

namespace PooFlow

open Foundation List

variable {V : Type}

def missingForThread (threadId : String) : GraphError :=
  .checkpoint s!"missing checkpoint for thread {threadId}"

def missingIdForThread (threadId checkpointId : String) : GraphError :=
  .checkpoint s!"missing checkpoint {checkpointId} for thread {threadId}"

/-- The replies to a call in memory, on files and in Turso, where `saved` are the
checkpoints that were saved for a thread since it was last cleared. -/
def Agree (saved : String → List (RuntimeGraphCheckpoint V)) (call : CheckpointerCall V)
    (memory files turso : Except GraphError (CheckpointerReply V)) : Prop :=
  match call with
  | .save .. => files = memory ∧ turso = memory
  | .clear _ => files = memory ∧ turso = memory
  | .load threadId => files = memory ∧ turso = memory.mapError fun _ => missingForThread threadId
  | .updateState threadId .. =>
    files = memory ∧ turso = memory.mapError fun _ => missingForThread threadId
  | .loadAt threadId checkpointId =>
    let missing : GraphError :=
      .checkpoint s!"missing runtime graph checkpoint: {threadId}/{checkpointId}"
    let first := (saved threadId).find? (·.checkpointId = checkpointId)
    let last := lastSaved (saved threadId) checkpointId
    memory = (presentElse first missing).map .checkpoint ∧
      files = (presentElse last missing).map .checkpoint ∧
      turso = (presentElse last (missingIdForThread threadId checkpointId)).map .checkpoint ∧
      (((saved threadId).map (·.checkpointId)).Nodup →
        files = memory ∧ turso = memory.mapError fun _ => missingIdForThread threadId checkpointId)
  | .history threadId =>
    memory = .ok (.checkpoints (saved threadId)) ∧
      (∃ listed, files = .ok (.checkpoints listed) ∧
        LatestBy (· ++ ".checkpoint.pickle") (saved threadId) listed ∧
        (files = memory ↔ (saved threadId).Pairwise fun checkpoint checkpoint' =>
          checkpoint.checkpointId ++ ".checkpoint.pickle" <
            checkpoint'.checkpointId ++ ".checkpoint.pickle")) ∧
      ∃ listed, turso = .ok (.checkpoints listed) ∧
        LatestBy id (saved threadId) listed ∧
        (turso = memory ↔ (saved threadId).Pairwise fun checkpoint checkpoint' =>
          checkpoint.checkpointId < checkpoint'.checkpointId)

namespace CheckpointerCall

def threadId : CheckpointerCall V → String
  | .save checkpoint _ _ => checkpoint.threadId
  | .load threadId => threadId
  | .loadAt threadId _ => threadId
  | .history threadId => threadId
  | .updateState threadId .. => threadId
  | .clear threadId => threadId

def checkpointIds : CheckpointerCall V → List String
  | .save checkpoint freshId _ => [(checkpoint.identified freshId).checkpointId]
  | .loadAt _ checkpointId => [checkpointId]
  | .updateState _ _ _ freshId _ => [freshId]
  | _ => []

end CheckpointerCall

structure Together (sha256 : String → String) (threads : Set String)
    (policy : RuntimeDurablePolicyManifest) (memory : MemoryRuntimeGraphCheckpointer V)
    (files : FileRuntimeGraphCheckpointer V) (turso : TursoRuntimeGraphCheckpointer V) :
    Prop where
  consistent : memory.Consistent
  onFiles : FileRuntimeGraphCheckpointer.Holds sha256 threads memory files
  inTurso : TursoRuntimeGraphCheckpointer.Holds memory turso
  samePolicy : turso.policy = policy

abbrev Reply (sha256 : String → String) (memory : MemoryRuntimeGraphCheckpointer V)
    (files : FileRuntimeGraphCheckpointer V) (turso : TursoRuntimeGraphCheckpointer V)
    (call : CheckpointerCall V) : Prop :=
  Agree memory.histories call (memory.answer call).1 (files.answer sha256 call).1
    (turso.answer call).1

def Retained (policy : RuntimeDurablePolicyManifest) (memory : MemoryRuntimeGraphCheckpointer V) :
    Prop :=
  ∀ limit, policy.historyRetentionLimit = some limit → ∀ threadId,
    ((memory.histories threadId).map (·.checkpointId)).dedup.length ≤ limit

namespace Together

variable {sha256 : String → String} {threads : Set String} {policy : RuntimeDurablePolicyManifest}
  {memory : MemoryRuntimeGraphCheckpointer V} {files : FileRuntimeGraphCheckpointer V}
  {turso : TursoRuntimeGraphCheckpointer V}

theorem initial : Together sha256 threads policy ({} : MemoryRuntimeGraphCheckpointer V) {}
    { policy } where
  consistent := ⟨fun _ => rfl, fun _ _ hmem => absurd hmem not_mem_nil⟩
  onFiles := ⟨fun _ _ => rfl, fun _ _ _ => rfl, fun _ hmem => absurd hmem not_mem_nil⟩
  inTurso := ⟨fun _ => rfl, fun _ _ => rfl⟩
  samePolicy := rfl

section

variable (h : Together sha256 threads policy memory files turso)

include h

theorem save (hdigest : Set.InjOn sha256 threads)
    (hstrategy : policy.checkpointIdStrategy ≠ "provided") (freshId : String) (now : ℕ)
    (checkpoint : RuntimeGraphCheckpoint V) (hthread : checkpoint.threadId ∈ threads)
    (hplain : PlainName (checkpoint.identified freshId).checkpointId)
    (hretained : Retained policy (memory.save freshId checkpoint).2) :
    ∃ turso', turso.save freshId now checkpoint = .ok (checkpoint.identified freshId, turso') ∧
      Together sha256 threads policy (memory.save freshId checkpoint).2
        (files.save sha256 freshId checkpoint).2 turso' := by
  refine ⟨turso.store now (checkpoint.identified freshId), ?_, ?_⟩
  · have hstored := h.inTurso.store freshId now checkpoint
    rw [TursoRuntimeGraphCheckpointer.save, h.samePolicy, guardElse,
      if_pos fun hprovided => hstrategy hprovided.2]
    show Except.ok _ = _
    rw [TursoRuntimeGraphCheckpointer.enforceRetention_of_le]
    intro limit hlimit
    rw [hstored.length_rowsOf]
    exact hretained limit (h.samePolicy ▸ hlimit) _
  · exact ⟨h.consistent.save freshId checkpoint,
      h.onFiles.save hdigest freshId checkpoint hthread hplain,
      h.inTurso.store freshId now checkpoint, h.samePolicy⟩

variable {threadId : String}

theorem load (hthread : threadId ∈ threads) : Reply sha256 memory files turso (.load threadId) := by
  have hfiles : files.load sha256 threadId = memory.load threadId := h.onFiles.load hthread
  constructor
  · exact congrArg (Except.map _) hfiles
  · show Except.map _ (turso.load threadId) = (Except.map _ (memory.load threadId)).mapError _
    rw [h.inTurso.load h.consistent, MemoryRuntimeGraphCheckpointer.load]
    cases memory.checkpoints threadId <;> rfl

theorem loadAt (hthread : threadId ∈ threads) (checkpointId : String) :
    Reply sha256 memory files turso (.loadAt threadId checkpointId) := by
  have hfiles : (files.answer sha256 (.loadAt threadId checkpointId)).1 =
      (presentElse (lastSaved (memory.histories threadId) checkpointId)
        (.checkpoint s!"missing runtime graph checkpoint: {threadId}/{checkpointId}")).map
        .checkpoint := by
    show Except.map _ (files.loadAt sha256 threadId checkpointId) = _
    rw [FileRuntimeGraphCheckpointer.loadAt, h.onFiles.file threadId hthread]
  have hturso : (turso.answer (.loadAt threadId checkpointId)).1 =
      (presentElse (lastSaved (memory.histories threadId) checkpointId)
        (missingIdForThread threadId checkpointId)).map .checkpoint := by
    show Except.map _ (turso.loadAt threadId checkpointId) = _
    rw [h.inTurso.loadAt]
    rfl
  refine ⟨rfl, hfiles, hturso, fun hdistinct => ?_⟩
  rw [hfiles, hturso, lastSaved_of_nodup hdistinct]
  refine ⟨rfl, ?_⟩
  show _ = (Except.map _ (memory.loadAt threadId checkpointId)).mapError _
  rw [MemoryRuntimeGraphCheckpointer.loadAt]
  cases (memory.histories threadId).find? (·.checkpointId = checkpointId) <;> rfl

theorem history (hdigest : Set.InjOn sha256 threads) (hthread : threadId ∈ threads) :
    Reply sha256 memory files turso (.history threadId) := by
  have hfiles := h.onFiles.history hdigest hthread
  have hturso := h.inTurso.history threadId
  have hsame : ∀ listed : List (RuntimeGraphCheckpoint V),
      (Except.ok (.checkpoints listed) : Except GraphError (CheckpointerReply V)) =
        .ok (.checkpoints (memory.histories threadId)) ↔
      listed = memory.histories threadId := fun listed => by
    rw [Except.ok.injEq, CheckpointerReply.checkpoints.injEq]
  exact ⟨rfl, ⟨_, rfl, hfiles, (hsame _).trans hfiles.eq_iff⟩,
    _, rfl, hturso, (hsame _).trans hturso.eq_iff⟩

section

variable (hdigest : Set.InjOn sha256 threads) (hstrategy : policy.checkpointIdStrategy ≠ "provided")

include hdigest hstrategy

theorem updateState {freshId : String} (hthread : threadId ∈ threads)
    (hplain : PlainName freshId) (update : Mapping V) (replace : Bool) (now : ℕ)
    (hretained : Retained policy
      (memory.answer (.updateState threadId update replace freshId now)).2) :
    Reply sha256 memory files turso (.updateState threadId update replace freshId now) ∧
      Together sha256 threads policy
        (memory.answer (.updateState threadId update replace freshId now)).2
        (files.answer sha256 (.updateState threadId update replace freshId now)).2
        (turso.answer (.updateState threadId update replace freshId now)).2 := by
  have hfiles : files.load sha256 threadId = memory.load threadId := h.onFiles.load hthread
  have hturso := h.inTurso.load h.consistent threadId
  simp only [Reply, MemoryRuntimeGraphCheckpointer.answer, FileRuntimeGraphCheckpointer.answer,
    TursoRuntimeGraphCheckpointer.answer, MemoryRuntimeGraphCheckpointer.updateState,
    FileRuntimeGraphCheckpointer.updateState, TursoRuntimeGraphCheckpointer.updateState,
    hfiles, hturso, MemoryRuntimeGraphCheckpointer.load] at hretained ⊢
  cases hlatest : memory.checkpoints threadId with
  | none => exact ⟨⟨rfl, rfl⟩, h⟩
  | some checkpoint =>
    -- the checkpoint that is updated is of the thread that was asked for
    rw [hlatest] at hretained
    obtain rfl := h.consistent.threadId_of_latest hlatest
    obtain ⟨turso', hsave, htogether⟩ := h.save hdigest hstrategy freshId now
      (checkpoint.withStateUpdate update replace) hthread hplain hretained
    simp only [presentElse, bind, Except.bind, hsave]
    exact ⟨⟨rfl, rfl⟩, htogether⟩

/-- **One call** is answered by all three, and they stay together. -/
theorem answer (call : CheckpointerCall V) (hthread : call.threadId ∈ threads)
    (hplain : ∀ checkpointId ∈ call.checkpointIds, PlainName checkpointId)
    (hretained : Retained policy (memory.answer call).2) : Reply sha256 memory files turso call ∧
      Together sha256 threads policy (memory.answer call).2 (files.answer sha256 call).2
        (turso.answer call).2 := by
  cases call with
  | save checkpoint freshId now =>
    obtain ⟨turso', hsave, htogether⟩ := h.save hdigest hstrategy freshId now checkpoint hthread
      (hplain _ (mem_singleton.2 rfl)) hretained
    simp only [Reply, TursoRuntimeGraphCheckpointer.answer, hsave]
    exact ⟨⟨rfl, rfl⟩, htogether⟩
  | load threadId => exact ⟨h.load hthread, h⟩
  | loadAt threadId checkpointId => exact ⟨h.loadAt hthread checkpointId, h⟩
  | history threadId => exact ⟨h.history hdigest hthread, h⟩
  | updateState threadId update replace freshId now =>
    exact h.updateState hdigest hstrategy hthread (hplain _ (mem_singleton.2 rfl)) update
      replace now hretained
  | clear threadId =>
    obtain ⟨hcleared, hfiles⟩ := h.onFiles.clear hdigest hthread
    refine ⟨⟨?_, rfl⟩, h.consistent.clear threadId, hfiles, h.inTurso.clear threadId, h.samePolicy⟩
    exact congrArg (Except.map fun _ => CheckpointerReply.cleared) hcleared

end

end

/-- **Any calls.** -/
theorem after (hdigest : Set.InjOn sha256 threads)
    (hstrategy : policy.checkpointIdStrategy ≠ "provided") (calls : List (CheckpointerCall V))
    (hthreads : ∀ call ∈ calls, call.threadId ∈ threads)
    (hplain : ∀ call ∈ calls, ∀ checkpointId ∈ call.checkpointIds, PlainName checkpointId)
    (hretained : ∀ before, before <+: calls → Retained policy (.after before)) :
    Together sha256 threads policy (.after calls) (.after sha256 calls) (.after policy calls) := by
  induction calls using List.reverseRecOn with
  | nil => exact initial
  | append_singleton calls call ih =>
    have hcall : call ∈ calls ++ [call] := mem_append_right _ (mem_singleton.2 rfl)
    have htogether := ih (fun call' hmem => hthreads call' (mem_append_left _ hmem))
      (fun call' hmem => hplain call' (mem_append_left _ hmem))
      (fun before hbefore => hretained before (hbefore.trans (prefix_append _ _)))
    have hafter := hretained _ (prefix_refl _)
    simp only [MemoryRuntimeGraphCheckpointer.after, FileRuntimeGraphCheckpointer.after,
      TursoRuntimeGraphCheckpointer.after, run_concat] at htogether hafter ⊢
    exact (htogether.answer hdigest hstrategy call (hthreads call hcall) (hplain call hcall)
      hafter).2

end Together

/-- **The checkpointers after any calls.** -/
theorem checkpointers_agree (sha256 : String → String) (policy : RuntimeDurablePolicyManifest)
    (calls : List (CheckpointerCall V)) (call : CheckpointerCall V) (hdigest : Set.InjOn sha256
      {threadId | ∃ call' ∈ calls ++ [call], call'.threadId = threadId})
    (hstrategy : policy.checkpointIdStrategy ≠ "provided")
    (hplain : ∀ call' ∈ calls ++ [call], ∀ checkpointId ∈ call'.checkpointIds,
      PlainName checkpointId)
    (hretained : ∀ before, before <+: calls ++ [call] → Retained policy
      (MemoryRuntimeGraphCheckpointer.after before)) :
    Agree (MemoryRuntimeGraphCheckpointer.after calls).histories call
      ((MemoryRuntimeGraphCheckpointer.after calls).answer call).1
      ((FileRuntimeGraphCheckpointer.after sha256 calls).answer sha256 call).1
      ((TursoRuntimeGraphCheckpointer.after policy calls).answer call).1 := by
  have hcall : call ∈ calls ++ [call] := mem_append_right _ (mem_singleton.2 rfl)
  have htogether := Together.after hdigest hstrategy calls
    (fun call' hmem => ⟨call', mem_append_left _ hmem, rfl⟩)
    (fun call' hmem => hplain call' (mem_append_left _ hmem))
    (fun before hbefore => hretained before (hbefore.trans (prefix_append _ _)))
  have hafter := hretained _ (prefix_refl _)
  simp only [MemoryRuntimeGraphCheckpointer.after, run_concat] at hafter
  exact (htogether.answer hdigest hstrategy call ⟨call, hcall, rfl⟩ (hplain call hcall) hafter).1

/-- A checkpoint of the thread `t`. -/
def checkpointAt (checkpointId : String) (step : ℕ) : RuntimeGraphCheckpoint ℕ where
  checkpointId
  threadId := "t"
  interrupt := none
  node := "draft"
  step
  state := ∅
  trace := []

/-- The digest of `t`, the only thread here. -/
def digestOfThread (_threadId : String) : String :=
  "e3b98a4da31a127d4bde6e43033f66ba274cab0eb7eb1c70ec41402bf6273dd8"

def savedInOrder : List (CheckpointerCall ℕ) :=
  [.save (checkpointAt "a" 1) "" 7, .save (checkpointAt "b" 2) "" 8]

theorem checkpointers_agree_in_order :
    Agree (MemoryRuntimeGraphCheckpointer.after savedInOrder).histories (.history "t")
      ((MemoryRuntimeGraphCheckpointer.after savedInOrder).answer (.history "t")).1
      ((FileRuntimeGraphCheckpointer.after digestOfThread savedInOrder).answer digestOfThread
        (.history "t")).1
      ((TursoRuntimeGraphCheckpointer.after {} savedInOrder).answer (.history "t")).1 := by
  refine checkpointers_agree digestOfThread {} savedInOrder (.history "t") ?_ (by decide)
    (by decide) fun _ _ _ hlimit => by cases hlimit
  rintro threadId ⟨call, hcall, rfl⟩ other ⟨call', hcall', rfl⟩ _
  have hthread : ∀ call ∈ savedInOrder ++ [.history "t"], call.threadId = "t" := by decide
  rw [hthread call hcall, hthread call' hcall']

def repliesAfter (policy : RuntimeDurablePolicyManifest) (calls : List (CheckpointerCall ℕ))
    (call : CheckpointerCall ℕ) : List (Except GraphError (CheckpointerReply ℕ)) :=
  [((MemoryRuntimeGraphCheckpointer.after calls).answer call).1,
    ((FileRuntimeGraphCheckpointer.after digestOfThread calls).answer digestOfThread call).1,
    ((TursoRuntimeGraphCheckpointer.after policy calls).answer call).1]

/-- **Where the checkpointers differ**: an id that is saved again, ids out of
order, a missing checkpoint, an id with a separator, and a policy that asks for ids. -/
theorem checkpointers_differ :
    repliesAfter {} [.save (checkpointAt "b" 1) "" 7, .save (checkpointAt "b" 2) "" 8]
        (.loadAt "t" "b") =
      [.ok (.checkpoint (checkpointAt "b" 1)), .ok (.checkpoint (checkpointAt "b" 2)),
        .ok (.checkpoint (checkpointAt "b" 2))] ∧
    repliesAfter {} [.save (checkpointAt "b" 1) "" 7, .save (checkpointAt "a" 2) "" 8]
        (.history "t") =
      [.ok (.checkpoints [checkpointAt "b" 1, checkpointAt "a" 2]),
        .ok (.checkpoints [checkpointAt "a" 2, checkpointAt "b" 1]),
        .ok (.checkpoints [checkpointAt "a" 2, checkpointAt "b" 1])] ∧
    repliesAfter {} [] (.load "t") =
      [.error (.checkpoint "missing runtime graph checkpoint: t"),
        .error (.checkpoint "missing runtime graph checkpoint: t"),
        .error (.checkpoint "missing checkpoint for thread t")] ∧
    repliesAfter {} [.save (checkpointAt "a/b" 1) "" 7] (.clear "t") =
      [.ok .cleared, .error (.raised "OSError: Directory not empty"), .ok .cleared] ∧
    repliesAfter { checkpointIdStrategy := "provided" } [] (.save (checkpointAt "" 1) "7-0" 7) =
      [.ok (.checkpoint (checkpointAt "7-0" 1)), .ok (.checkpoint (checkpointAt "7-0" 1)),
        .error (.raised
          "RuntimeDurablePolicyError: checkpoint_id is required by durable policy")] := by
  decide +kernel

end PooFlow

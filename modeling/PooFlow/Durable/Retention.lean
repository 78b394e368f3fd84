import PooFlow.Durable.Checkpointers
import PooFlow.Foundation.Grouping
import PooFlow.Foundation.Sorting

/-! `save` of `durable.py` names the checkpoint as the head of its thread, and then drops the rows
beyond the limit, in the order of time and of ids. The head is not exempt. -/

namespace PooFlow

open Foundation List Keyed

variable {V : Type}

section

variable {α κ : Type*} [DecidableEq κ] {key : α → κ} {values : List α}

theorem take_filter_of_mem (hnodup : (values.map key).Nodup) {k : κ} {n : ℕ}
    (hmem : k ∈ (values.take (n + 1)).map key) :
    (values.filter (key · ≠ k)).take n = (values.take (n + 1)).filter (key · ≠ k) := by
  induction values generalizing n with
  | nil => simp
  | cons a rest ih =>
    rw [map_cons, nodup_cons] at hnodup
    rw [take_succ_cons] at hmem ⊢
    by_cases hkey : key a = k
    · have hkept : ∀ b ∈ rest, key b ≠ k := by
        rintro b hb rfl
        exact hnodup.1 (hkey ▸ mem_map_of_mem hb)
      rw [filter_cons_of_neg (by simpa using hkey), filter_cons_of_neg (by simpa using hkey),
        filter_eq_self.2 (by simpa using hkept), filter_eq_self.2 ?_]
      intro b hb
      simpa using hkept b (mem_of_mem_take hb)
    · rw [map_cons, mem_cons] at hmem
      have hrest := hmem.resolve_left (Ne.symm hkey)
      rw [filter_cons_of_pos (by simpa using hkey), filter_cons_of_pos (by simpa using hkey)]
      cases n with
      | zero => simp at hrest
      | succ n => rw [take_succ_cons, ih hnodup.2 hrest]

theorem take_filter_of_notMem {k : κ} {n : ℕ} (h : k ∉ (values.take n).map key) :
    (values.filter (key · ≠ k)).take n = values.take n := by
  induction values generalizing n with
  | nil => rfl
  | cons a rest ih =>
    cases n with
    | zero => rw [take_zero, take_zero]
    | succ n =>
      rw [take_succ_cons, map_cons, mem_cons, not_or] at h
      rw [filter_cons_of_pos (by simpa using Ne.symm h.1), take_succ_cons, take_succ_cons, ih h.2]

end

structure TursoSave (V : Type) where
  checkpoint : RuntimeGraphCheckpoint V
  freshId : String
  now : ℕ

namespace TursoSave

def call (s : TursoSave V) : CheckpointerCall V := .save s.checkpoint s.freshId s.now

def row (s : TursoSave V) : RuntimeGraphCheckpoint V × ℕ :=
  (s.checkpoint.identified s.freshId, s.now)

def Accepted (policy : RuntimeDurablePolicyManifest) (s : TursoSave V) : Prop :=
  ¬(s.checkpoint.checkpointId = "" ∧ policy.checkpointIdStrategy = "provided")

instance (policy : RuntimeDurablePolicyManifest) :
    DecidablePred (TursoSave.Accepted policy : TursoSave V → Prop) := fun s =>
  inferInstanceAs (Decidable (¬(s.checkpoint.checkpointId = "" ∧
    policy.checkpointIdStrategy = "provided")))

end TursoSave

abbrev rowId (row : RuntimeGraphCheckpoint V × ℕ) : String := row.1.checkpointId

/-- A row of `runtime_checkpoints`. -/
def tursoRow (row : RuntimeGraphCheckpoint V × ℕ) :
    (String × String) × (RuntimeGraphCheckpoint V × ℕ) :=
  ((row.1.threadId, row.1.checkpointId), row)

section

variable (policy : RuntimeDurablePolicyManifest)

def tursoAfter (saves : List (TursoSave V)) : TursoRuntimeGraphCheckpointer V :=
  .after policy (saves.map TursoSave.call)

def recentRows (threadId : String) (saves : List (TursoSave V)) :
    List (RuntimeGraphCheckpoint V × ℕ) :=
  firstOfKey rowId (((saves.filter fun s =>
    s.Accepted policy ∧ s.checkpoint.threadId = threadId).map TursoSave.row).reverse)

def KeepsHead (limit : ℕ) (saved : List (TursoSave V)) (s : TursoSave V) : Prop :=
  s.Accepted policy →
    (tursoAfter policy (saved ++ [s])).load s.checkpoint.threadId = .ok s.row.1 ∧
      ((tursoAfter policy (saved ++ [s])).rowsOf s.checkpoint.threadId).Perm
        (((recentRows policy s.checkpoint.threadId (saved ++ [s])).take limit).map tursoRow)

/-- Where a new id is saved and the thread has `limit` rows, the oldest of these has the
least id among the rows of its time, the new one included. -/
def Outlasts (limit : ℕ) (saved : List (TursoSave V)) (s : TursoSave V) : Prop :=
  s.Accepted policy →
    let recent := recentRows policy s.checkpoint.threadId saved
    rowId s.row ∉ (recent.take limit).map rowId →
      ∀ oldest, recent[limit - 1]? = some oldest →
        ∀ kept ∈ s.row :: recent.take (limit - 1), kept.2 = oldest.2 → rowId oldest < rowId kept

variable {policy}

@[simp] theorem row_threadId (s : TursoSave V) : s.row.1.threadId = s.checkpoint.threadId :=
  RuntimeGraphCheckpoint.identified_threadId _ _

theorem recentRows_concat (threadId : String) (saved : List (TursoSave V)) (s : TursoSave V) :
    recentRows policy threadId (saved ++ [s]) =
      if s.Accepted policy ∧ s.checkpoint.threadId = threadId then
        s.row :: (recentRows policy threadId saved).filter (rowId · ≠ rowId s.row)
      else recentRows policy threadId saved := by
  unfold recentRows
  rw [filter_append, map_append, reverse_append]
  split
  · next hthread =>
    rw [filter_cons_of_pos (by simpa using hthread)]
    rfl
  · next hthread =>
    rw [filter_cons_of_neg (by simpa using hthread)]
    rfl

variable {saved : List (TursoSave V)}

/-- With a clock that never decreases, the rows are in the order of time. -/
theorem recentRows_descend
    (hclock : saved.Pairwise fun s later => s.now ≤ later.now) (threadId : String) :
    (recentRows policy threadId saved).Pairwise fun row earlier => earlier.2 ≤ row.2 := by
  refine List.Pairwise.sublist (firstOfKey_sublist rowId _) ?_
  rw [pairwise_reverse, pairwise_map]
  exact hclock.sublist filter_sublist

theorem now_of_mem_recentRows {threadId : String}
    {row : RuntimeGraphCheckpoint V × ℕ} (h : row ∈ recentRows policy threadId saved) :
    ∃ s ∈ saved, s.now = row.2 := by
  have hmem := (firstOfKey_sublist rowId _).mem h
  obtain ⟨s, hs, rfl⟩ := mem_map.1 (mem_reverse.1 hmem)
  exact ⟨s, mem_of_mem_filter hs, rfl⟩

theorem tursoAfter_concat (saved : List (TursoSave V)) (s : TursoSave V) :
    tursoAfter policy (saved ++ [s]) = ((tursoAfter policy saved).answer s.call).2 := by
  unfold tursoAfter TursoRuntimeGraphCheckpointer.after
  rw [map_append, map_singleton, run_concat]

end

namespace TursoRuntimeGraphCheckpointer

variable {turso : TursoRuntimeGraphCheckpointer V}

theorem answer_call (turso : TursoRuntimeGraphCheckpointer V) (s : TursoSave V) :
    (turso.answer s.call).2 =
      if s.Accepted turso.policy then
        (turso.store s.now s.row.1).enforceRetention s.checkpoint.threadId
      else turso := by
  show (answerSaved turso (turso.save s.freshId s.now s.checkpoint)).2 = _
  rw [save]
  split
  · next haccepted =>
    have hguard : guardElse (¬(s.checkpoint.checkpointId = "" ∧
        turso.policy.checkpointIdStrategy = "provided")) (GraphError.raised
      "RuntimeDurablePolicyError: checkpoint_id is required by durable policy") = .ok () :=
      guardElse_of haccepted
    rw [hguard]
    show (turso.store s.now s.row.1).enforceRetention s.row.1.threadId = _
    rw [row_threadId]
  · next hrefused =>
    have hguard : guardElse (¬(s.checkpoint.checkpointId = "" ∧
        turso.policy.checkpointIdStrategy = "provided")) (GraphError.raised
      "RuntimeDurablePolicyError: checkpoint_id is required by durable policy") = .error _ :=
      if_neg hrefused
    rw [hguard]
    rfl

variable (threadId : String)

@[simp] theorem enforceRetention_policy :
    (turso.enforceRetention threadId).policy = turso.policy := by
  unfold enforceRetention
  split <;> rfl

@[simp] theorem enforceRetention_heads : (turso.enforceRetention threadId).heads = turso.heads := by
  unfold enforceRetention
  split <;> rfl

theorem mem_rowsOf {threadId : String} {row : (String × String) × (RuntimeGraphCheckpoint V × ℕ)} :
    row ∈ turso.rowsOf threadId ↔ row ∈ turso.checkpoints.rows ∧ row.1.1 = threadId :=
  mem_select

theorem nodup_rowsOf : (turso.rowsOf threadId).Nodup :=
  List.Nodup.of_map _ nodup_select

def retentionKey (row : (String × String) × (RuntimeGraphCheckpoint V × ℕ)) : ℕ ×ₗ String :=
  toLex (row.2.2, row.1.2)

def retentionOrder (turso : TursoRuntimeGraphCheckpointer V) (threadId : String) :
    List ((String × String) × (RuntimeGraphCheckpoint V × ℕ)) :=
  (turso.rowsOf threadId).insertionSort fun row row' => retentionKey row' ≤ retentionKey row

theorem retentionOrder_perm : (turso.retentionOrder threadId).Perm (turso.rowsOf threadId) :=
  perm_insertionSort _ _

theorem retentionOrder_descends : (turso.retentionOrder threadId).Pairwise fun row row' =>
      retentionKey row' ≤ retentionKey row :=
  pairwise_sortOn (fun row => OrderDual.toDual (retentionKey row)) (turso.rowsOf threadId)

theorem enforceRetention_checkpoints {limit : ℕ} {threadId : String}
    (hlimit : turso.policy.historyRetentionLimit = some limit) :
    (turso.enforceRetention threadId).checkpoints = turso.checkpoints.delete
      (· ∈ ((turso.retentionOrder threadId).drop limit).map Prod.fst) := by
  rw [enforceRetention, hlimit]
  rfl

/-- **Retention** keeps the first rows of the order, and the rows of other threads. -/
theorem rowsOf_enforceRetention {limit : ℕ}
    (hlimit : turso.policy.historyRetentionLimit = some limit) (threadId : String) :
    ((turso.enforceRetention threadId).rowsOf threadId).Perm
      ((turso.retentionOrder threadId).take limit) := by
  have hnodup : (turso.retentionOrder threadId).Nodup :=
    (retentionOrder_perm threadId).nodup_iff.2 (nodup_rowsOf threadId)
  refine (perm_ext_iff_of_nodup (nodup_rowsOf threadId)
    ((take_sublist _ _).nodup hnodup)).2 fun row => ?_
  rw [mem_rowsOf, enforceRetention_checkpoints hlimit, mem_delete]
  have hdisjoint := hnodup
  rw [← take_append_drop limit (turso.retentionOrder threadId), nodup_append] at hdisjoint
  constructor
  · rintro ⟨⟨hmem, hkept⟩, hthread⟩
    have hrow : row ∈ turso.retentionOrder threadId :=
      (retentionOrder_perm threadId).mem_iff.2 (mem_rowsOf.2 ⟨hmem, hthread⟩)
    rw [← take_append_drop limit (turso.retentionOrder threadId)] at hrow
    refine (mem_append.1 hrow).resolve_right fun hdrop => ?_
    exact hkept (mem_map_of_mem hdrop)
  · intro htake
    obtain ⟨hmem, hthread⟩ := mem_rowsOf.1
      ((retentionOrder_perm threadId).mem_iff.1 (mem_of_mem_take htake))
    refine ⟨⟨hmem, fun hexpired => ?_⟩, hthread⟩
    -- a row that has expired has a key of its own
    obtain ⟨other, hother, hkey⟩ := mem_map.1 hexpired
    have hothers := (mem_rowsOf.1 ((retentionOrder_perm threadId).mem_iff.1
      (mem_of_mem_drop hother))).1
    obtain rfl := eq_of_key hothers hmem hkey
    exact hdisjoint.2.2 _ htake _ hother rfl

theorem rowsOf_enforceRetention_of_ne {threadId other : String} (hne : other ≠ threadId) :
    ((turso.enforceRetention threadId).rowsOf other).Perm (turso.rowsOf other) := by
  refine (perm_ext_iff_of_nodup (nodup_rowsOf other) (nodup_rowsOf other)).2 fun row => ?_
  rw [mem_rowsOf, mem_rowsOf]
  cases hlimit : turso.policy.historyRetentionLimit with
  | none => simp [enforceRetention, hlimit]
  | some limit =>
    rw [enforceRetention_checkpoints hlimit, mem_delete]
    refine ⟨fun ⟨⟨hmem, _⟩, hthread⟩ => ⟨hmem, hthread⟩, fun ⟨hmem, hthread⟩ =>
      ⟨⟨hmem, fun hexpired => ?_⟩, hthread⟩⟩
    obtain ⟨expired, hdrop, hkey⟩ := mem_map.1 hexpired
    have hthread' := (mem_rowsOf.1 ((retentionOrder_perm threadId).mem_iff.1
      (mem_of_mem_drop hdrop))).2
    rw [hkey, hthread] at hthread'
    exact hne hthread'

theorem rowsOf_store (now : ℕ) (checkpoint : RuntimeGraphCheckpoint V) :
    ((turso.store now checkpoint).rowsOf checkpoint.threadId).Perm
      (tursoRow (checkpoint, now) ::
        (turso.rowsOf checkpoint.threadId).filter (·.1.2 ≠ checkpoint.checkpointId)) := by
  have hfresh : tursoRow (checkpoint, now) ∉
      (turso.rowsOf checkpoint.threadId).filter (·.1.2 ≠ checkpoint.checkpointId) :=
    fun hmem => of_decide_eq_true (mem_filter.1 hmem).2 rfl
  refine (perm_ext_iff_of_nodup (nodup_rowsOf _)
    (nodup_cons.2 ⟨hfresh, (nodup_rowsOf _).filter _⟩)).2 fun row => ?_
  rw [mem_rowsOf, store, mem_put, mem_cons, mem_filter, mem_rowsOf]
  constructor
  · rintro ⟨⟨hmem, hkey⟩ | rfl, hthread⟩
    · refine .inr ⟨⟨hmem, hthread⟩, decide_eq_true fun hid => hkey ?_⟩
      exact Prod.ext hthread hid
    · exact .inl rfl
  · rintro (rfl | ⟨⟨hmem, hthread⟩, hid⟩)
    · exact ⟨.inr rfl, rfl⟩
    · exact ⟨.inl ⟨hmem, fun hkey => of_decide_eq_true hid (congrArg Prod.snd hkey)⟩, hthread⟩

theorem rowsOf_store_of_ne (now : ℕ) {checkpoint : RuntimeGraphCheckpoint V} {other : String}
    (hne : other ≠ checkpoint.threadId) :
    ((turso.store now checkpoint).rowsOf other).Perm (turso.rowsOf other) := by
  refine (perm_ext_iff_of_nodup (nodup_rowsOf _) (nodup_rowsOf _)).2 fun row => ?_
  rw [mem_rowsOf, mem_rowsOf, store, mem_put]
  constructor
  · rintro ⟨⟨hmem, -⟩ | rfl, hthread⟩
    · exact ⟨hmem, hthread⟩
    · exact absurd hthread.symm hne
  · rintro ⟨hmem, hthread⟩
    refine ⟨.inl ⟨hmem, fun hkey => hne ?_⟩, hthread⟩
    rw [← hthread, hkey]

end TursoRuntimeGraphCheckpointer

open TursoRuntimeGraphCheckpointer

structure Retains (policy : RuntimeDurablePolicyManifest) (limit : ℕ) (saved : List (TursoSave V)) :
    Prop where
  policy_eq : (tursoAfter policy saved).policy = policy
  rows : ∀ threadId, ((tursoAfter policy saved).rowsOf threadId).Perm
    (((recentRows policy threadId saved).take limit).map tursoRow)

section

variable {policy : RuntimeDurablePolicyManifest} {limit : ℕ} {saved : List (TursoSave V)}
  {s : TursoSave V}

section

variable (h : Retains policy limit saved)

include h

theorem tursoAfter_accepted (haccepted : s.Accepted policy) : tursoAfter policy (saved ++ [s]) =
      ((tursoAfter policy saved).store s.now s.row.1).enforceRetention s.checkpoint.threadId := by
  rw [tursoAfter_concat, answer_call, h.policy_eq, if_pos haccepted]

theorem tursoAfter_refused (hrefused : ¬s.Accepted policy) :
    tursoAfter policy (saved ++ [s]) = tursoAfter policy saved := by
  rw [tursoAfter_concat, answer_call, h.policy_eq, if_neg hrefused]

theorem Retains.concat (hkeeps : KeepsHead policy limit saved s) :
    Retains policy limit (saved ++ [s]) := by
  by_cases haccepted : s.Accepted policy
  · constructor
    · rw [tursoAfter_accepted h haccepted, enforceRetention_policy]
      exact h.policy_eq
    · intro threadId
      -- a save on another thread leaves the rows as they are
      by_cases hthread : s.checkpoint.threadId = threadId
      · subst hthread
        exact (hkeeps haccepted).2
      · rw [tursoAfter_accepted h haccepted, recentRows_concat, if_neg fun hboth => hthread hboth.2]
        refine (rowsOf_enforceRetention_of_ne (Ne.symm hthread)).trans ?_
        refine (rowsOf_store_of_ne s.now ?_).trans (h.rows threadId)
        rw [row_threadId]
        exact Ne.symm hthread
  · constructor
    · rw [tursoAfter_refused h haccepted]
      exact h.policy_eq
    · intro threadId
      rw [tursoAfter_refused h haccepted, recentRows_concat, if_neg fun hboth => haccepted hboth.1]
      exact h.rows threadId

theorem Retains.stored :
    (((tursoAfter policy saved).store s.now s.row.1).rowsOf s.checkpoint.threadId).Perm
      ((s.row :: ((recentRows policy s.checkpoint.threadId saved).take limit).filter
        (rowId · ≠ rowId s.row)).map tursoRow) := by
  have hstore : (((tursoAfter policy saved).store s.now s.row.1).rowsOf _).Perm _ :=
    rowsOf_store s.now s.row.1
  rw [row_threadId] at hstore
  refine hstore.trans (List.Perm.cons _ ?_)
  refine ((h.rows s.checkpoint.threadId).filter _).trans (List.Perm.of_eq ?_)
  rw [filter_map]
  rfl

theorem keepsHead_iff (hpos : 0 < limit) (hlimit : policy.historyRetentionLimit = some limit)
    (haccepted : s.Accepted policy) : KeepsHead policy limit saved s ↔
      ((((tursoAfter policy saved).store s.now s.row.1).retentionOrder
          s.checkpoint.threadId).take limit).Perm
        ((s.row :: ((recentRows policy s.checkpoint.threadId saved).filter
          (rowId · ≠ rowId s.row)).take (limit - 1)).map tursoRow) := by
  -- the policy is the one the run started with
  have hstored : ((tursoAfter policy saved).store s.now s.row.1).policy.historyRetentionLimit =
      some limit := by
    show (tursoAfter policy saved).policy.historyRetentionLimit = _
    rw [h.policy_eq, hlimit]
  have hkept := rowsOf_enforceRetention hstored s.checkpoint.threadId
  have hrecent : (recentRows policy s.checkpoint.threadId (saved ++ [s])).take limit =
      s.row :: ((recentRows policy s.checkpoint.threadId saved).filter
        (rowId · ≠ rowId s.row)).take (limit - 1) := by
    obtain ⟨m, rfl⟩ := Nat.exists_eq_succ_of_ne_zero hpos.ne'
    rw [recentRows_concat, if_pos ⟨haccepted, rfl⟩]
    rfl
  rw [KeepsHead, hrecent, tursoAfter_accepted h haccepted]
  constructor
  · intro hkeeps
    exact hkept.symm.trans (hkeeps haccepted).2
  · intro hperm _
    have hrows := hkept.trans hperm
    refine ⟨?_, hrows⟩
    -- the row that was saved is the first of those that are kept
    have hmem := (mem_rowsOf.1 (hrows.mem_iff.2 (mem_map_of_mem mem_cons_self))).1
    have hhead : (((tursoAfter policy saved).store s.now s.row.1).enforceRetention
        s.checkpoint.threadId).heads.find? s.checkpoint.threadId = some (rowId s.row) := by
      rw [enforceRetention_heads, store, find?_put, row_threadId, if_pos rfl]
    have hfound := find?_eq_some.2 hmem
    rw [row_threadId] at hfound
    rw [load, hhead]
    show loadAt _ _ _ = _
    rw [loadAt, hfound]
    rfl

end

variable {turso : TursoRuntimeGraphCheckpointer V}

theorem take_retentionOrder_of_le {threadId : String}
    {rows : List ((String × String) × (RuntimeGraphCheckpoint V × ℕ))}
    (hperm : (turso.rowsOf threadId).Perm rows) (hle : rows.length ≤ limit) :
    ((turso.retentionOrder threadId).take limit).Perm rows := by
  have horder := (retentionOrder_perm threadId).trans hperm
  rw [take_of_length_le (by rw [horder.length_eq]; exact hle)]
  exact horder

theorem retentionKey_lt {oldest kept : RuntimeGraphCheckpoint V × ℕ} (h : oldest.2 ≤ kept.2) :
    retentionKey (tursoRow oldest) < retentionKey (tursoRow kept) ↔
      (kept.2 = oldest.2 → rowId oldest < rowId kept) := by
  unfold retentionKey
  rw [Prod.Lex.toLex_lt_toLex]
  constructor
  · rintro (hlt | ⟨-, hid⟩) hsame
    · exact absurd hsame hlt.ne'
    · exact hid
  · intro hid
    rcases h.lt_or_eq with hlt | hsame
    · exact .inl hlt
    · exact .inr ⟨hsame, hid hsame.symm⟩

/-- **A row too many** is the oldest one exactly when this comes last of its time. -/
theorem take_retentionOrder_iff {threadId : String}
    {row oldest : RuntimeGraphCheckpoint V × ℕ} {recent : List (RuntimeGraphCheckpoint V × ℕ)}
    {m : ℕ} (hstored : (turso.rowsOf threadId).Perm ((row :: recent.take (m + 1)).map tursoRow))
    (hnodup : (recent.map rowId).Nodup)
    (htimes : recent.Pairwise fun row earlier => earlier.2 ≤ row.2)
    (hnow : ∀ earlier ∈ recent, earlier.2 ≤ row.2)
    (hid : rowId row ∉ (recent.take (m + 1)).map rowId) (holdest : recent[m]? = some oldest) :
    ((turso.retentionOrder threadId).take (m + 1)).Perm ((row :: recent.take m).map tursoRow) ↔
      ∀ kept ∈ row :: recent.take m, kept.2 = oldest.2 → rowId oldest < rowId kept := by
  have hlast : recent.take (m + 1) = recent.take m ++ [oldest] := by
    rw [take_add_one, holdest]
    rfl
  have hsplit : (recent.take m ++ [oldest]).Sublist recent := hlast ▸ take_sublist _ _
  have hlength : (row :: recent.take m).length = m + 1 := by
    rw [length_cons, length_take_of_le]
    exact (List.getElem?_eq_some_iff.1 holdest).1.le
  -- no other row has the id of the oldest one
  have hdistinct : ∀ kept ∈ row :: recent.take m, rowId kept ≠ rowId oldest := by
    intro kept hkept
    have hids := (hsplit.map rowId).nodup hnodup
    rw [map_append, nodup_append] at hids
    rcases mem_cons.1 hkept with rfl | hkept
    · intro hsame
      refine hid ?_
      rw [hsame, hlast]
      exact mem_map_of_mem (mem_append_right _ mem_cons_self)
    · exact hids.2.2 _ (mem_map_of_mem hkept) _ (mem_map_of_mem mem_cons_self)
  have hbefore : ∀ kept ∈ row :: recent.take m, oldest.2 ≤ kept.2 := by
    intro kept hkept
    rcases mem_cons.1 hkept with rfl | hkept
    · exact hnow oldest (hsplit.mem (mem_append_right _ mem_cons_self))
    · exact (pairwise_append.1 (htimes.sublist hsplit)).2.2 kept hkept oldest
        mem_cons_self
  rw [hlast, ← cons_append, map_append] at hstored
  have htake := take_sorted_perm_iff (retentionOrder_descends threadId)
    ((retentionOrder_perm threadId).trans hstored) (by
      rintro _ hrow hkey
      obtain ⟨kept, hkept, rfl⟩ := mem_map.1 hrow
      exact hdistinct kept hkept (congrArg (·.2) (toLex.injective hkey)))
  rw [length_map, hlength] at htake
  -- rows are compared by time and then by id
  refine htake.trans ?_
  constructor
  · intro hleast kept hkept
    exact (retentionKey_lt (hbefore kept hkept)).1 (hleast _ (mem_map_of_mem hkept))
  · rintro houtlasts _ hrow
    obtain ⟨kept, hkept, rfl⟩ := mem_map.1 hrow
    exact (retentionKey_lt (hbefore kept hkept)).2 (houtlasts kept hkept)

/-- **One save** keeps the head exactly when the row that is dropped comes last. -/
theorem keepsHead_iff_outlasts (h : Retains policy limit saved) (hpos : 0 < limit)
    (hlimit : policy.historyRetentionLimit = some limit)
    (hclock : (saved ++ [s]).Pairwise fun s later => s.now ≤ later.now) :
    KeepsHead policy limit saved s ↔ Outlasts policy limit saved s := by
  by_cases haccepted : s.Accepted policy
  swap
  · exact ⟨fun _ hcontrary => absurd hcontrary haccepted,
      fun _ hcontrary => absurd hcontrary haccepted⟩
  rw [keepsHead_iff h hpos hlimit haccepted, Outlasts]
  have hstored := h.stored (s := s)
  have hnodup : ((recentRows policy s.checkpoint.threadId saved).map rowId).Nodup :=
    nodup_firstOfKey _ _
  have htimes : (recentRows policy s.checkpoint.threadId saved).Pairwise _ :=
    recentRows_descend (pairwise_append.1 hclock).1 s.checkpoint.threadId
  have hnow : ∀ row ∈ recentRows policy s.checkpoint.threadId saved, row.2 ≤ s.now := by
    intro row hrow
    obtain ⟨earlier, hearlier, heq⟩ := now_of_mem_recentRows hrow
    rw [← heq]
    exact (pairwise_append.1 hclock).2.2 earlier hearlier s mem_cons_self
  generalize recentRows policy s.checkpoint.threadId saved = recent at *
  obtain ⟨m, rfl⟩ := Nat.exists_eq_succ_of_ne_zero hpos.ne'
  rw [Nat.succ_eq_add_one, Nat.add_sub_cancel] at *
  by_cases hid : rowId s.row ∈ (recent.take (m + 1)).map rowId
  · -- the row takes the place of one of its id
    have hkept := take_filter_of_mem hnodup hid
    rw [← hkept] at hstored
    refine iff_of_true (take_retentionOrder_of_le hstored ?_) fun _ hnew => absurd hid hnew
    rw [length_map, length_cons]
    exact Nat.succ_le_succ (length_take_le _ _)
  have hfilter : (recent.take (m + 1)).filter (rowId · ≠ rowId s.row) = recent.take (m + 1) := by
    refine filter_eq_self.2 fun row hrow => decide_eq_true ?_
    rintro hsame
    exact hid (hsame ▸ mem_map_of_mem hrow)
  have hrest : rowId s.row ∉ (recent.take m).map rowId := fun hmem =>
    hid (((take_sublist_take_left (Nat.le_succ m)).map rowId).mem hmem)
  rw [hfilter] at hstored
  rw [take_filter_of_notMem hrest]
  -- with a new id, either there is room or the oldest row is one too many
  cases holdest : recent[m]? with
  | none =>
    have hlength := List.getElem?_eq_none_iff.1 holdest
    rw [take_of_length_le (hlength.trans (Nat.le_succ m)), ← take_of_length_le hlength] at hstored
    refine iff_of_true (take_retentionOrder_of_le hstored ?_) fun _ _ oldest hfound =>
      absurd (hfound.symm.trans holdest) (Option.some_ne_none oldest)
    rw [length_map, length_cons]
    exact Nat.succ_le_succ (length_take_le _ _)
  | some oldest =>
    refine (take_retentionOrder_iff hstored hnodup htimes hnow hid holdest).trans ?_
    constructor
    · intro houtlasts _ _ _ other hother
      obtain rfl := Option.some.inj (holdest.symm.trans hother)
      exact houtlasts
    · exact fun houtlasts => houtlasts haccepted hid oldest holdest

theorem Retains.nil (policy : RuntimeDurablePolicyManifest) (limit : ℕ) :
    Retains policy limit ([] : List (TursoSave V)) := by
  constructor
  · rfl
  · intro threadId
    show List.Perm [] (List.map tursoRow (List.take limit []))
    rw [take_nil, map_nil]

theorem retains_along (hpos : 0 < limit) (hlimit : policy.historyRetentionLimit = some limit)
    {saves : List (TursoSave V)} (h : Retains policy limit saved)
    (hclock : (saved ++ saves).Pairwise fun s later => s.now ≤ later.now) :
    Along (fun saved s => saved ++ [s]) (KeepsHead policy limit) saved saves ↔
      Along (fun saved s => saved ++ [s]) (Outlasts policy limit) saved saves := by
  induction saves generalizing saved with
  | nil => exact Iff.rfl
  | cons s later ih =>
    rw [append_cons] at hclock
    have hsave := keepsHead_iff_outlasts h hpos hlimit
      (hclock.sublist (sublist_append_left _ _))
    constructor
    · rintro ⟨hkeeps, hlater⟩
      exact ⟨hsave.1 hkeeps, (ih (h.concat hkeeps) hclock).1 hlater⟩
    · rintro ⟨houtlasts, hlater⟩
      have hkeeps := hsave.2 houtlasts
      exact ⟨hkeeps, (ih (h.concat hkeeps) hclock).2 hlater⟩

/-- **Retention keeps the head**: with a limit of at least one and a clock that never
decreases, the saves of a history are loaded back and retained exactly when each row that is
dropped comes last among the rows of its time. -/
theorem turso_retention_iff (policy : RuntimeDurablePolicyManifest) {limit : ℕ}
    (hpos : 0 < limit) (hlimit : policy.historyRetentionLimit = some limit)
    (saves : List (TursoSave V)) (hclock : saves.Pairwise fun s later => s.now ≤ later.now) :
    Along (fun saved s => saved ++ [s]) (KeepsHead policy limit) [] saves ↔
      Along (fun saved s => saved ++ [s]) (Outlasts policy limit) [] saves :=
  retains_along hpos hlimit (.nil policy limit) hclock

end

def savedAs (checkpointId : String) (now : ℕ) : TursoSave ℕ where
  checkpoint :=
    { checkpointId, threadId := "thread", interrupt := none, node := "draft", step := 0
      state := ∅, trace := [] }
  freshId := "fresh"
  now := now

theorem later_save_keeps_head :
    Along (fun saved s => saved ++ [s]) (KeepsHead { historyRetentionLimit := some 1 } 1) []
      [savedAs "b" 0, savedAs "a" 1] :=
  (turso_retention_iff { historyRetentionLimit := some 1 } Nat.one_pos rfl
    [savedAs "b" 0, savedAs "a" 1] (by simp [savedAs])).2 (by
      refine ⟨fun _ _ oldest hnone => ?_, fun _ _ oldest holdest => ?_, trivial⟩
      · exact absurd hnone.symm (Option.some_ne_none oldest)
      · obtain rfl := Option.some.inj holdest
        simp [savedAs, TursoSave.row])

/-- Of two rows of one time, the one with the lesser id is dropped, also if it is the head. -/
theorem saved_head_pruned :
    ¬∀ saves : List (TursoSave ℕ), (saves.Pairwise fun s later => s.now ≤ later.now) →
      Along (fun saved s => saved ++ [s]) (KeepsHead { historyRetentionLimit := some 1 } 1) []
        saves := by
  intro hall
  have hkeeps := hall [savedAs "b" 0, savedAs "a" 0] (by simp [savedAs])
  have hloaded := (hkeeps.2.1 (by decide)).1
  revert hloaded
  decide +kernel

end PooFlow

import PooFlow.Standards.Sections

namespace PooFlow.Standards

open Foundation List Function Bool

variable {τ V : Type} {ctx : Context}

/-- Some thread loads the source of the key, or materializes its artifact. -/
def InProgress (s : State ctx τ V) (key : String) : Prop :=
  ∃ t, key ∈ (s.holdings t).keys ∨ key ∈ (s.holdings t).sources

def Authentic (ctx : Context) (receipt : Receipt V) : Prop :=
  ∃ (ref : ctx.Ref) (artifact : Artifact V),
    ctx.artifactIndex receipt.artifactIdentity = some ref ∧ receipt.artifact = some artifact ∧
      artifact.identity = receipt.artifactIdentity ∧ artifact.digest = ref.1.digest ∧
        artifact.representation = ref.1.representation

def Event.runsSource (key : String) : Event V → Bool
  | .sourceRuns other => other = key
  | _ => false

def Event.runsMaterializer (key : String) : Event V → Bool
  | .materializerRuns other => other = key
  | _ => false

variable [DecidableEq τ]

structure SingleFlight (ctx : Context) (actions : List (Action τ V)) : Prop where
  once : ∀ front mid back key, actions = front ++ mid ++ back →
    let seen := observed act (run step ({} : State ctx τ V) front) mid
    Event.evicted key ∉ seen →
      seen.countP (Event.runsSource key) ≤ 1 ∧ seen.countP (Event.runsMaterializer key) ≤ 1
  evict : ∀ front a back key, actions = front ++ a :: back →
    let s := run step ({} : State ctx τ V) front
    Event.evicted key ∈ (act s a).2 → ¬InProgress s key
  receipts : ∀ front a back receipt, actions = front ++ a :: back →
    Event.answered receipt ∈ (act (run step ({} : State ctx τ V) front) a).2 →
      receipt.valid = true → Authentic ctx receipt

section

variable {s s' : State ctx τ V} {events : List (Event V)} {key : String}

omit [DecidableEq τ] in
theorem Quiet.countP (h : Quiet events) {p : Event V → Bool}
    (hp : ∀ receipt, p (.answered receipt) = false) : events.countP p = 0 := by
  refine countP_eq_zero.2 fun e he => ?_
  obtain ⟨receipt, rfl⟩ := h e he
  rw [hp]
  exact false_ne_true

/-- The source loader of the key has been started. -/
def SourceMark (key : String) (s : State ctx τ V) : Prop :=
  s.tables.sourceStates key ≠ none

theorem sourceMark_effect (heffect : Effect s s' events) (hreset : Event.evicted key ∉ events)
    (hmark : SourceMark key s) : SourceMark key s' := by
  rw [SourceMark] at hmark ⊢
  cases heffect with
  | same hsame => rwa [hsame.sourceStates]
  | take t ref hfree hstates hsourceStates => rwa [hsourceStates]
  | run t ref keys hsame => rwa [hsame.sourceStates]
  | drop t ref state below hquiet hstate hstates hsourceStates => rwa [hsourceStates]
  | takeSource t ref hfree hstates hsourceStates
  | dropSource t ref state sources hstate hstates hsourceStates =>
    rw [hsourceStates]
    by_cases hkey : key = ref.1.cacheKey
    · rw [hkey, update_self]
      exact Option.some_ne_none _
    · rwa [update_of_ne hkey]
  | evict other hstate hsourceState hstates hsourceStates =>
    have hkey : key ≠ other := by
      rintro rfl
      exact hreset mem_cons_self
    rwa [hsourceStates, update_of_ne hkey]

theorem source_first (heffect : Effect s s' events) : events.countP (Event.runsSource key) = 0 ∨
      (events.countP (Event.runsSource key) = 1 ∧ ¬SourceMark key s ∧ SourceMark key s') := by
  cases heffect with
  | same hsame hquiet => exact .inl (hquiet.countP fun _ => rfl)
  | take => exact .inl rfl
  | run => exact .inl rfl
  | drop t ref state below hquiet => exact .inl (hquiet.countP fun _ => rfl)
  | takeSource t ref hfree hstates hsourceStates =>
    by_cases hkey : ref.1.cacheKey = key
    · subst hkey
      refine .inr ⟨by simp [Event.runsSource], not_not.2 hfree, ?_⟩
      rw [SourceMark, hsourceStates, update_self]
      exact Option.some_ne_none _
    · exact .inl (by simp [Event.runsSource, hkey])
  | dropSource => exact .inl rfl
  | evict => exact .inl rfl

def MaterializerMark (key : String) (s : State ctx τ V) : Prop :=
  s.tables.states key = some .ready ∨ s.tables.states key = some .failed ∨
    ∃ t, key ∈ (s.holdings t).running

omit [DecidableEq τ] in
theorem Sound.loading_of_running (h : Sound s) {t : τ} (hrunning : key ∈ (s.holdings t).running) :
    s.tables.states key = some .loading :=
  (h.keys.marked key).2 ⟨t, running_subset _ hrunning⟩

omit [DecidableEq τ] in
theorem MaterializerMark.mono (hmark : MaterializerMark key s)
    (hstates : s'.tables.states key = s.tables.states key)
    (hrunning : ∀ t, key ∈ (s.holdings t).running → key ∈ (s'.holdings t).running) :
    MaterializerMark key s' := by
  rw [MaterializerMark, hstates]
  exact hmark.imp_right (Or.imp_right fun ⟨t, ht⟩ => ⟨t, hrunning t ht⟩)

theorem materializerMark_effect (h : Sound s) (heffect : Effect s s' events)
    (hreset : Event.evicted key ∉ events) (hmark : MaterializerMark key s) :
    MaterializerMark key s' := by
  cases heffect with
  | same hsame hquiet hholdings =>
    exact hmark.mono (by rw [hsame.states]) fun t ht => by rwa [hholdings]
  | take t ref hfree hstates hsourceStates hartifacts hholdings =>
    have hkey : key ≠ ref.1.cacheKey := by
      rintro rfl
      rcases hmark with hready | hfailed | ⟨u, hu⟩
      · rw [hfree] at hready
        cases hready
      · rw [hfree] at hfailed
        cases hfailed
      · have hloading := h.loading_of_running hu
        rw [hfree] at hloading
        cases hloading
    refine hmark.mono (by rw [hstates, update_of_ne hkey]) fun u hu => ?_
    rwa [hholdings, field_update Holding.running (by rfl)]
  | run t ref keys hsame hkeys hrunning hholdings =>
    refine hmark.mono (by rw [hsame.states]) fun u hu => ?_
    rw [hholdings]
    by_cases hut : u = t
    · subst hut
      rw [update_self]
      exact mem_cons_of_mem _ hu
    · rwa [update_of_ne hut]
  | drop t ref state below hquiet hstate hstates hsourceStates hready hartifacts hkeys hsources
      hrunning hless hholdings =>
    by_cases hkey : key = ref.1.cacheKey
    · rw [MaterializerMark, hstates, hkey, update_self]
      cases state with
      | loading => exact absurd rfl hstate
      | ready => exact .inl rfl
      | failed => exact .inr (.inl rfl)
    · refine hmark.mono (by rw [hstates, update_of_ne hkey]) fun u hu => ?_
      rw [hholdings]
      by_cases hut : u = t
      · subst hut
        rw [update_self]
        exact (hrunning key hu).resolve_left hkey
      · rwa [update_of_ne hut]
  | takeSource t ref hfree hstates hsourceStates hartifacts hholdings
  | dropSource t ref state sources hstate hstates hsourceStates hartifacts hsources hholdings =>
    refine hmark.mono (by rw [hstates]) fun u hu => ?_
    rwa [hholdings, field_update Holding.running (by rfl)]
  | evict other hstate hsourceState hstates hsourceStates hartifacts hholdings =>
    have hkey : key ≠ other := by
      rintro rfl
      exact hreset mem_cons_self
    exact hmark.mono (by rw [hstates, update_of_ne hkey]) fun t ht => by rwa [hholdings]

theorem materializer_first (h : Sound s) (heffect : Effect s s' events) :
    events.countP (Event.runsMaterializer key) = 0 ∨
      (events.countP (Event.runsMaterializer key) = 1 ∧ ¬MaterializerMark key s ∧
        MaterializerMark key s') := by
  cases heffect with
  | same hsame hquiet => exact .inl (hquiet.countP fun _ => rfl)
  | take => exact .inl rfl
  | run t ref keys hsame hkeys hrunning hholdings =>
    by_cases hkey : ref.1.cacheKey = key
    · subst hkey
      have hheld : ref.1.cacheKey ∈ (s.holdings t).keys := by
        rw [hkeys]
        exact mem_cons_self
      have hloading := (h.keys.marked _).2 ⟨t, hheld⟩
      refine .inr ⟨by simp [Event.runsMaterializer], ?_, .inr (.inr ⟨t, ?_⟩)⟩
      · rintro (hready | hfailed | ⟨u, hu⟩)
        · exact absurd (hready.symm.trans hloading) (by decide)
        · exact absurd (hfailed.symm.trans hloading) (by decide)
        · -- the thread that holds the key has not started its materializer
          obtain rfl := h.keys.owner u t _ (running_subset _ hu) hheld
          have hnodup := h.keys.nodup u
          rw [hkeys, nodup_cons] at hnodup
          exact hnodup.1 (hrunning _ hu)
      · rw [hholdings, update_self]
        exact mem_cons_self
    · exact .inl (by simp [Event.runsMaterializer, hkey])
  | drop t ref state below hquiet => exact .inl (hquiet.countP fun _ => rfl)
  | takeSource => exact .inl rfl
  | dropSource => exact .inl rfl
  | evict => exact .inl rfl

theorem Sound.once (h : Sound s) {actions : List (Action τ V)}
    (hreset : Event.evicted key ∉ observed act s actions) :
    (observed act s actions).countP (Event.runsSource key) ≤ 1 ∧
      (observed act s actions).countP (Event.runsMaterializer key) ≤ 1 := by
  have hnone : ∀ e ∈ observed act s actions, ¬e = Event.evicted key := by
    rintro e he rfl
    exact hreset he
  constructor
  · exact (observed_once (fun s a (h : Sound s) => h.after a)
      (fun s a _ (hreset : ∀ e ∈ (act s a).2, ¬e = Event.evicted key) =>
        sourceMark_effect (act_effect s a) fun he => hreset _ he rfl)
      (fun s a _ => source_first (act_effect s a)) h hnone).1
  · exact (observed_once (fun s a (h : Sound s) => h.after a)
      (fun s a h (hreset : ∀ e ∈ (act s a).2, ¬e = Event.evicted key) =>
        materializerMark_effect h (act_effect s a) fun he => hreset _ he rfl)
      (fun s a h => materializer_first h (act_effect s a)) h hnone).1

variable {a : Action τ V}

theorem Sound.evict (h : Sound s) (hevicted : Event.evicted key ∈ (act s a).2) :
    ¬InProgress s key := by
  have heffect := act_effect s a
  generalize (act s a).1 = s' at heffect
  generalize (act s a).2 = events at heffect hevicted
  have hquiet : ¬Quiet events := fun hquiet => by
    obtain ⟨receipt, heq⟩ := hquiet _ hevicted
    cases heq
  cases heffect with
  | same _ hanswers => exact absurd hanswers hquiet
  | take => cases hevicted
  | run => simp at hevicted
  | drop _ _ _ _ hanswers => exact absurd hanswers hquiet
  | takeSource => simp at hevicted
  | dropSource => cases hevicted
  | evict other hstate hsourceState =>
    obtain rfl : key = other := by simpa using hevicted
    rintro ⟨t, hkey | hkey⟩
    · exact hstate ((h.keys.marked key).2 ⟨t, hkey⟩)
    · exact hsourceState ((h.sources.marked key).2 ⟨t, hkey⟩)

end

section

variable {s : State ctx τ V} {t : τ} {receipt : Receipt V}

/-- The next section of the thread looks for the artifact. -/
def Asks (s : State ctx τ V) (t : τ) (ref : ctx.Ref) : Prop :=
  s.asleep t = false ∧ ∃ path below, s.frames t = .materialize ref.1.identity path :: below ∧
    ref.1.identity ∉ activeMaterializations below ∧ ref.1.identity ∉ path

def Action.Meets (s : State ctx τ V) : Action τ V → Prop
  | .proceed t => ∀ (ref : ctx.Ref) (artifact : Artifact V), Asks s t ref →
    s.tables.states ref.1.cacheKey = some .ready →
      s.tables.artifacts ref.1.cacheKey = some artifact →
        artifact.identity = ref.1.identity
  | _ => True

variable {ref : ctx.Ref}

omit [DecidableEq τ] in
theorem artifactValid_iff {artifact : Artifact V} :
    artifactValid ref artifact = true ↔ artifact.identity = ref.1.identity ∧
      artifact.digest = ref.1.digest ∧ artifact.representation = ref.1.representation := by
  rw [artifactValid, decide_eq_true_eq]

theorem authentic_of_valid {artifact : Artifact V}
    (hidentity : receipt.artifactIdentity = ref.1.identity)
    (hartifact : receipt.artifact = some artifact) (hvalid : artifactValid ref artifact = true) :
    Authentic ctx receipt := by
  obtain ⟨hsame, hdescribed⟩ := artifactValid_iff.1 hvalid
  exact ⟨ref, artifact, hidentity ▸ ctx.artifactIndex_ref ref, hartifact,
    hsame.trans hidentity.symm, hdescribed⟩

theorem not_valid_of_failure {failure : Failure V} {failures : List (Failure V)}
    (h : receipt.failures = failure :: failures) : receipt.valid ≠ true := by
  rw [Receipt.valid, h]
  exact false_ne_true

section

variable {below : List (Frame ctx V)}

include below

theorem not_valid_publishFailure {failure : Failure V} {loadReceipt : Option (LoadReceipt V)}
    (h : Event.answered receipt ∈ (publishFailure s t ref failure loadReceipt below).2) :
    receipt.valid ≠ true := by
  obtain rfl := Event.answered.inj (mem_singleton.1 h)
  exact not_valid_of_failure rfl

theorem not_answered_loadSourceOne {identity : Text} (receipt : Receipt V) :
    Event.answered receipt ∉ (loadSourceOne s t identity below).2 := by
  rw [loadSourceOne.eq_def]
  split
  · exact not_mem_nil
  · split
    · exact not_mem_nil
    · rw [answerPublished.eq_def]
      split <;> exact not_mem_nil
    · simp

theorem Sound.authentic_loadOne (h : Sound s) {identity : Text} {path : List Text}
    (hawake : s.asleep t = false) (hstack : s.frames t = .materialize identity path :: below)
    (hmeets : (Action.proceed t : Action τ V).Meets s)
    (hanswer : Event.answered receipt ∈ (loadOne s t identity path below).2)
    (hvalid : receipt.valid = true) : Authentic ctx receipt := by
  have hfailed : ∀ {r : Receipt V} {failure failures}, Event.answered receipt ∈
      (answer s t below r).2 → r.failures = failure :: failures → Authentic ctx receipt := by
    intro r failure failures hmem hfailures
    obtain rfl := Event.answered.inj (mem_singleton.1 hmem)
    exact absurd hvalid (not_valid_of_failure hfailures)
  rw [loadOne] at hanswer
  dsimp only at hanswer
  split_ifs at hanswer with hactive hpath
  · exact hfailed hanswer rfl
  · exact hfailed hanswer rfl
  · cases hindex : ctx.artifactIndex identity with
    | none =>
      rw [hindex] at hanswer
      exact hfailed hanswer rfl
    | some ref =>
      obtain rfl := ctx.artifactIndex_some hindex
      rw [hindex] at hanswer
      dsimp only at hanswer
      cases hstate : s.tables.states ref.1.cacheKey with
      | none =>
        rw [hstate] at hanswer
        cases hanswer
      | some state =>
        rw [hstate] at hanswer
        cases state with
        | loading => cases hanswer
        | failed =>
          dsimp only at hanswer
          cases hfailure : s.tables.failures ref.1.cacheKey with
          | some failure =>
            rw [hfailure] at hanswer
            exact hfailed hanswer rfl
          | none =>
            rw [hfailure] at hanswer
            cases hanswer
        | ready =>
          obtain rfl := Event.answered.inj (mem_singleton.1 hanswer)
          obtain ⟨made, artifact, hkey, hartifact, hmade⟩ := h.ready _ hstate
          have hsame := hmeets ref artifact ⟨hawake, path, below, hstack, hactive, hpath⟩ hstate
            hartifact
          obtain rfl := ctx.ref_ext (hsame.symm.trans (artifactValid_iff.1 hmade).1)
          exact authentic_of_valid rfl hartifact hmade

theorem authentic_materializerReturns {path : List Text}
    {loadReceipt : LoadReceipt V} {result : Except V (Option (Artifact V))}
    (hanswer : Event.answered receipt ∈
      (materializerReturns s t ref path loadReceipt result below).2) (hvalid : receipt.valid = true)
    : Authentic ctx receipt := by
  rw [materializerReturns.eq_def] at hanswer
  dsimp only at hanswer
  split at hanswer
  · exact absurd hvalid (not_valid_publishFailure hanswer)
  · exact absurd hvalid (not_valid_publishFailure hanswer)
  · next artifact =>
    split_ifs at hanswer with hchecked
    · obtain rfl := Event.answered.inj (mem_singleton.1 hanswer)
      exact authentic_of_valid rfl rfl hchecked
    · exact absurd hvalid (not_valid_publishFailure hanswer)

end

/-- **Step lemma** for receipts. -/
theorem Sound.authentic (h : Sound s) (hmeets : a.Meets s)
    (hanswer : Event.answered receipt ∈ (act s a).2) (hvalid : receipt.valid = true) :
    Authentic ctx receipt := by
  cases a with
  | materialize u identity =>
    rw [act] at hanswer
    split_ifs at hanswer <;> cases hanswer
  | loadSource u identity =>
    rw [act] at hanswer
    split_ifs at hanswer <;> cases hanswer
  | evict u identity =>
    have hnone : Event.answered receipt ∉ (evictOne s identity).2 := by
      rw [evictOne.eq_def]
      split
      · exact not_mem_nil
      · dsimp only
        split_ifs <;> simp
    rw [act] at hanswer
    split_ifs at hanswer
    · exact absurd hanswer hnone
    · cases hanswer
  | proceed u =>
    rw [act] at hanswer
    split_ifs at hanswer with hasleep
    · cases hanswer
    · rw [proceed.eq_def] at hanswer
      split at hanswer
      · next hstack =>
        exact h.authentic_loadOne (eq_false_iff.2 hasleep) hstack hmeets hanswer hvalid
      · cases hanswer
      · exact absurd hvalid (not_valid_publishFailure hanswer)
      · cases hanswer
      · rw [sourceAnswered.eq_def] at hanswer
        split at hanswer
        · exact absurd hvalid (not_valid_publishFailure hanswer)
        · simp at hanswer
      · exact absurd hanswer (not_answered_loadSourceOne receipt)
      · cases hanswer
  | sourceReturns u result =>
    rw [act] at hanswer
    split at hanswer
    · rw [sourceReturns.eq_def] at hanswer
      dsimp only at hanswer
      split at hanswer
      · cases hanswer
      · cases hanswer
      · split_ifs at hanswer <;> cases hanswer
    · cases hanswer
  | materializerReturns u result =>
    rw [act] at hanswer
    split at hanswer
    · exact authentic_materializerReturns hanswer hvalid
    · cases hanswer

theorem not_authentic (hnot : ¬a.Meets s) :
    ∃ receipt, Event.answered receipt ∈ (act s a).2 ∧ receipt.valid = true ∧
      ¬Authentic ctx receipt := by
  cases a with
  | proceed u =>
    rw [Action.Meets] at hnot
    push Not at hnot
    obtain ⟨ref, artifact, hasks, hstate, hartifact, hother⟩ := hnot
    obtain ⟨hawake, path, below, hstack, hactive, hpath⟩ := hasks
    refine ⟨materializationReceipt ctx ref.1.identity (some artifact) .cacheHit
      (s.tables.loadReceipts ref.1.cacheKey) [] false, ?_, rfl, ?_⟩
    · rw [act, if_neg (by rw [hawake]; exact false_ne_true), proceed, hstack]
      dsimp only
      rw [loadOne]
      dsimp only
      rw [if_neg hactive, if_neg hpath, ctx.artifactIndex_ref]
      dsimp only
      rw [hstate, hartifact]
      exact mem_cons_self
    · rintro ⟨_, found, _, hfound, hsame, _⟩
      obtain rfl := Option.some.inj hfound
      exact hother hsame
  | _ => exact absurd trivial hnot

end

theorem sound_run (actions : List (Action τ V)) :
    Sound (run step ({} : State ctx τ V) actions) := by
  have hstep : ∀ (s : State ctx τ V) a, Sound s → Sound (step s a) := fun s a h => h.after a
  exact run_invariant hstep sound_initial actions

/-- **Single flight**: a run loads and materializes every key at most once between two
evictions, evicts no key that is in progress, and answers with the requested artifacts,
if and only if no request finds another artifact ready under its cache key. -/
theorem singleFlight_iff (actions : List (Action τ V)) : SingleFlight ctx actions ↔
      Along step (fun s a => Action.Meets s a) ({} : State ctx τ V) actions := by
  constructor
  · intro h
    refine along_of_at fun front a back hsplit => ?_
    by_contra hnot
    obtain ⟨receipt, hanswer, hvalid, hother⟩ := not_authentic hnot
    exact hother (h.receipts front a back receipt hsplit hanswer hvalid)
  · intro hmeets
    constructor
    · intro front mid back key _
      exact (sound_run front).once
    · intro front a back key _
      exact (sound_run front).evict
    · rintro front a back receipt rfl hanswer hvalid
      exact (sound_run front).authentic hmeets.at hanswer hvalid

def schemaText : Text := ⟨"schema", by decide⟩

def profileText : Text := ⟨"profile", by decide⟩

def publishedAs (identity : Text) : ArtifactRef :=
  standardArtifactRef identity ⟨"urn:standard", by decide⟩ ⟨"1", by decide⟩ "json"
    unknownGeneration [] 0

def sharedContext : Context where
  refs := [publishedAs schemaText, publishedAs profileText]
  distinct := by decide

def sharedRun : List (Action Unit Unit) :=
  [.materialize () schemaText, .proceed (), .proceed (), .proceed (),
    .sourceReturns () (.ok (some ⟨schemaText, unknownGeneration, "json", 0, ()⟩)), .proceed (),
    .materializerReturns () (.ok (some ⟨schemaText, unknownGeneration, "json", ()⟩)),
    .materialize () profileText]

theorem other_artifact_answered : ¬SingleFlight sharedContext (sharedRun ++ [.proceed ()]) := by
  intro h
  let s := run step ({} : State sharedContext Unit Unit) sharedRun
  let profile : sharedContext.Ref := ⟨publishedAs profileText, by decide⟩
  have hready : s.tables.states profile.1.cacheKey = some .ready := by decide +kernel
  have hartifact : s.tables.artifacts profile.1.cacheKey =
      some ⟨schemaText, unknownGeneration, "json", ()⟩ := rfl
  have hasks : Asks s () profile := by
    refine ⟨by decide +kernel, [], [], rfl, not_mem_nil, not_mem_nil⟩
  have hnot : ¬(Action.proceed () : Action Unit Unit).Meets s := fun hmeets =>
    absurd (hmeets profile _ hasks hready hartifact) (by decide)
  obtain ⟨receipt, hanswer, hvalid, hother⟩ := not_authentic hnot
  exact hother (h.receipts sharedRun (.proceed ()) [] receipt rfl hanswer hvalid)

end PooFlow.Standards

import PooFlow.Foundation.Ownership
import PooFlow.Standards.Loader

namespace PooFlow.Standards

open Foundation List Function

variable {τ V : Type} {ctx : Context}

theorem Context.artifactIndex_some {identity : Text} {ref : ctx.Ref}
    (h : ctx.artifactIndex identity = some ref) : ref.1.identity = identity := by
  have hfound := List.find?_some h
  exact of_decide_eq_true hfound

theorem Context.ref_ext {ref ref' : ctx.Ref} (h : ref.1.identity = ref'.1.identity) : ref = ref' :=
  Subtype.ext (inj_on_of_nodup_map ctx.distinct ref.2 ref'.2 h)

theorem Context.artifactIndex_ref (ref : ctx.Ref) :
    ctx.artifactIndex ref.1.identity = some ref := by
  cases hfound : ctx.artifactIndex ref.1.identity with
  | some other => exact congrArg some (ctx.ref_ext (ctx.artifactIndex_some hfound))
  | none =>
    have hnone := List.find?_eq_none.1 hfound ref (mem_attach _ ref)
    simp at hnone

/-- The cache keys that a stack has put in state `loading`, in the two state tables, and
those whose materializer it runs. -/
structure Holding where
  keys : List String := []
  sources : List String := []
  running : List String := []

def holding : List (Frame ctx V) → Holding
  | [] => {}
  | .dependencies ref _ _ _ :: below =>
    { holding below with keys := ref.1.cacheKey :: (holding below).keys }
  | .sourced ref _ _ :: below =>
    { holding below with keys := ref.1.cacheKey :: (holding below).keys }
  | .materializing ref _ _ _ :: below =>
    { holding below with
      keys := ref.1.cacheKey :: (holding below).keys
      running := ref.1.cacheKey :: (holding below).running }
  | .loading ref :: below =>
    { holding below with sources := ref.1.cacheKey :: (holding below).sources }
  | .materialize _ _ :: below => holding below
  | .loadSource _ :: below => holding below

section

variable (ref : ctx.Ref) (path rest : List Text) (below : List (Frame ctx V))

theorem holding_dependencies (failure : Option (List (Failure V))) :
    holding (.dependencies ref path rest failure :: below) =
      { holding below with keys := ref.1.cacheKey :: (holding below).keys } := rfl

theorem holding_sourced (loadReceipt : Option (LoadReceipt V)) :
    holding (.sourced ref path loadReceipt :: below) =
      { holding below with keys := ref.1.cacheKey :: (holding below).keys } := rfl

theorem holding_materializing (loadReceipt : LoadReceipt V) (source : Option (Source V)) :
    holding (.materializing ref path loadReceipt source :: below) =
      { holding below with
        keys := ref.1.cacheKey :: (holding below).keys
        running := ref.1.cacheKey :: (holding below).running } := rfl

theorem holding_loading : holding (.loading ref :: below) =
      { holding below with sources := ref.1.cacheKey :: (holding below).sources } := rfl

end

@[simp] theorem holding_returnReceipt (receipt : Receipt V) (stack : List (Frame ctx V)) :
    holding (returnReceipt receipt stack) = holding stack := by
  rw [returnReceipt.eq_def]
  split
  · rfl
  · rfl

@[simp] theorem holding_returnLoadReceipt (loadReceipt : LoadReceipt V)
    (stack : List (Frame ctx V)) :
    holding (returnLoadReceipt loadReceipt stack) = holding stack := by
  rw [returnLoadReceipt.eq_def]
  split
  · rfl
  · rfl

theorem running_subset (stack : List (Frame ctx V)) {key : String}
    (h : key ∈ (holding stack).running) : key ∈ (holding stack).keys := by
  induction stack with
  | nil => exact h
  | cons frame below ih =>
    cases frame with
    | materialize identity path => exact ih h
    | dependencies ref path rest failure => exact mem_cons_of_mem _ (ih h)
    | sourced ref path loadReceipt => exact mem_cons_of_mem _ (ih h)
    | materializing ref path loadReceipt source =>
      rcases mem_cons.1 h with rfl | h
      · exact mem_cons_self
      · exact mem_cons_of_mem _ (ih h)
    | loadSource identity => exact ih h
    | loading ref => exact ih h

def State.holdings (s : State ctx τ V) (t : τ) : Holding := holding (s.frames t)

/-- The tables and holdings that a kind of section says nothing about stay the same. -/
structure Same (s s' : State ctx τ V) : Prop where
  states : s'.tables.states = s.tables.states
  sourceStates : s'.tables.sourceStates = s.tables.sourceStates
  artifacts : s'.tables.artifacts = s.tables.artifacts

def Quiet (events : List (Event V)) : Prop := ∀ e ∈ events, ∃ receipt, e = .answered receipt

variable [DecidableEq τ]

inductive Effect (s s' : State ctx τ V) : List (Event V) → Prop where
  | same {events : List (Event V)} (hsame : Same s s') (hquiet : Quiet events)
      (hholdings : s'.holdings = s.holdings) : Effect s s' events
  | take (t : τ) (ref : ctx.Ref) (hfree : s.tables.states ref.1.cacheKey = none)
      (hstates : s'.tables.states =
        Function.update s.tables.states ref.1.cacheKey (some .loading))
      (hsourceStates : s'.tables.sourceStates = s.tables.sourceStates)
      (hartifacts : s'.tables.artifacts = s.tables.artifacts)
      (hholdings : s'.holdings = Function.update s.holdings t
        { s.holdings t with keys := ref.1.cacheKey :: (s.holdings t).keys }) : Effect s s' []
  | run (t : τ) (ref : ctx.Ref) (keys : List String) (hsame : Same s s')
      (hkeys : (s.holdings t).keys = ref.1.cacheKey :: keys)
      (hrunning : ∀ key ∈ (s.holdings t).running, key ∈ keys)
      (hholdings : s'.holdings = Function.update s.holdings t
        { s.holdings t with running := ref.1.cacheKey :: (s.holdings t).running }) :
      Effect s s' [.materializerRuns ref.1.cacheKey]
  | drop {events : List (Event V)} (t : τ) (ref : ctx.Ref) (state : ArtifactState)
      (below : Holding) (hquiet : Quiet events) (hstate : state ≠ .loading)
      (hstates : s'.tables.states = Function.update s.tables.states ref.1.cacheKey (some state))
      (hsourceStates : s'.tables.sourceStates = s.tables.sourceStates)
      (hready : state = .ready → ∃ artifact, artifactValid ref artifact = true ∧
        s'.tables.artifacts ref.1.cacheKey = some artifact)
      (hartifacts : ∀ key, key ≠ ref.1.cacheKey →
        s'.tables.artifacts key = s.tables.artifacts key)
      (hkeys : (s.holdings t).keys = ref.1.cacheKey :: below.keys)
      (hsources : (s.holdings t).sources = below.sources)
      (hrunning : ∀ key ∈ (s.holdings t).running, key = ref.1.cacheKey ∨ key ∈ below.running)
      (hless : ∀ key ∈ below.running, key ∈ (s.holdings t).running)
      (hholdings : s'.holdings = Function.update s.holdings t below) : Effect s s' events
  | takeSource (t : τ) (ref : ctx.Ref)
      (hfree : s.tables.sourceStates ref.1.cacheKey = none)
      (hstates : s'.tables.states = s.tables.states)
      (hsourceStates : s'.tables.sourceStates =
        Function.update s.tables.sourceStates ref.1.cacheKey (some .loading))
      (hartifacts : s'.tables.artifacts = s.tables.artifacts)
      (hholdings : s'.holdings = Function.update s.holdings t
        { s.holdings t with sources := ref.1.cacheKey :: (s.holdings t).sources }) :
      Effect s s' [.sourceRuns ref.1.cacheKey]
  | dropSource (t : τ) (ref : ctx.Ref) (state : SourceState) (sources : List String)
      (hstate : state ≠ .loading) (hstates : s'.tables.states = s.tables.states)
      (hsourceStates : s'.tables.sourceStates =
        Function.update s.tables.sourceStates ref.1.cacheKey (some state))
      (hartifacts : s'.tables.artifacts = s.tables.artifacts)
      (hsources : (s.holdings t).sources = ref.1.cacheKey :: sources)
      (hholdings : s'.holdings = Function.update s.holdings t
        { s.holdings t with sources := sources }) : Effect s s' []
  | evict (key : String) (hstate : s.tables.states key ≠ some .loading)
      (hsourceState : s.tables.sourceStates key ≠ some .loading)
      (hstates : s'.tables.states = Function.update s.tables.states key none)
      (hsourceStates : s'.tables.sourceStates = Function.update s.tables.sourceStates key none)
      (hartifacts : ∀ other, other ≠ key → s'.tables.artifacts other = s.tables.artifacts other)
      (hholdings : s'.holdings = s.holdings) : Effect s s' [.evicted key]

section

variable {s s' : State ctx τ V} {t : τ} {below : List (Frame ctx V)}

omit [DecidableEq τ] in
theorem Same.rfl : Same s s := ⟨Eq.refl _, Eq.refl _, Eq.refl _⟩

theorem quiet_nil : Quiet ([] : List (Event V)) := fun _ he => by cases he

theorem quiet_answered (receipt : Receipt V) : Quiet [.answered receipt] := fun _ he =>
  ⟨receipt, mem_singleton.1 he⟩

theorem Effect.refl (s : State ctx τ V) : Effect s s [] := .same .rfl quiet_nil rfl

theorem holdings_update (s : State ctx τ V) {stack : List (Frame ctx V)}
    (h : s'.frames = update s.frames t stack) :
    s'.holdings = update s.holdings t (holding stack) := by
  funext u
  by_cases hu : u = t
  · subst hu
    simp only [State.holdings, h, update_self]
  · simp only [State.holdings, h, update_of_ne hu]

theorem effect_setStack {stack : List (Frame ctx V)} {events : List (Event V)}
    (hholding : holding stack = s.holdings t) (hquiet : Quiet events) :
    Effect s (s.setStack t stack) events := by
  refine .same ⟨rfl, rfl, rfl⟩ hquiet ?_
  rw [holdings_update s rfl, hholding, update_eq_self]

theorem effect_answer (hholding : holding below = s.holdings t) (receipt : Receipt V) :
    Effect s (answer s t below receipt).1 (answer s t below receipt).2 :=
  effect_setStack (by rw [holding_returnReceipt, hholding]) (quiet_answered receipt)

theorem effect_answerLoad (hholding : holding below = s.holdings t) (loadReceipt : LoadReceipt V) :
    Effect s (answerLoad s t below loadReceipt).1 (answerLoad s t below loadReceipt).2 :=
  effect_setStack (by rw [holding_returnLoadReceipt, hholding]) quiet_nil

theorem effect_publishFailure {ref : ctx.Ref} {failure : Failure V}
    {loadReceipt : Option (LoadReceipt V)}
    (hkeys : (s.holdings t).keys = ref.1.cacheKey :: (holding below).keys)
    (hsources : (s.holdings t).sources = (holding below).sources)
    (hrunning : ∀ key ∈ (s.holdings t).running,
      key = ref.1.cacheKey ∨ key ∈ (holding below).running)
    (hless : ∀ key ∈ (holding below).running, key ∈ (s.holdings t).running) :
    Effect s (publishFailure s t ref failure loadReceipt below).1
      (publishFailure s t ref failure loadReceipt below).2 := by
  refine .drop t ref .failed (holding below) (quiet_answered _) (by decide) rfl rfl
    (fun hready => by cases hready) (fun _ _ => rfl) hkeys hsources hrunning hless ?_
  refine (holdings_update s rfl).trans ?_
  rw [holding_returnReceipt]

section

variable (hholding : holding below = s.holdings t)

include hholding

theorem effect_loadOne {identity : Text} {path : List Text} :
    Effect s (loadOne s t identity path below).1 (loadOne s t identity path below).2 := by
  rw [loadOne]
  dsimp only
  split_ifs
  · exact effect_answer hholding _
  · exact effect_answer hholding _
  · cases ctx.artifactIndex identity with
    | none => exact effect_answer hholding _
    | some ref =>
      dsimp only
      cases hstate : s.tables.states ref.1.cacheKey with
      | none =>
        refine .take t ref hstate rfl rfl rfl ?_
        refine (holdings_update s rfl).trans ?_
        rw [holding_dependencies, hholding]
      | some state =>
        cases state with
        | loading => exact .same ⟨rfl, rfl, rfl⟩ quiet_nil rfl
        | ready => exact effect_answer hholding _
        | failed =>
          dsimp only
          cases s.tables.failures ref.1.cacheKey with
          | some failure => exact effect_answer hholding _
          | none => exact .refl s

theorem effect_answerPublished {ref : ctx.Ref} :
    Effect s (answerPublished s t ref below).1 (answerPublished s t ref below).2 := by
  rw [answerPublished.eq_def]
  cases s.tables.loadReceipts ref.1.cacheKey with
  | some loadReceipt => exact effect_answerLoad hholding _
  | none => exact .refl s

theorem effect_loadSourceOne {identity : Text} :
    Effect s (loadSourceOne s t identity below).1 (loadSourceOne s t identity below).2 := by
  rw [loadSourceOne]
  cases ctx.artifactIndex identity with
  | none => exact effect_answerLoad hholding _
  | some ref =>
    dsimp only
    cases hstate : s.tables.sourceStates ref.1.cacheKey with
    | none =>
      refine .takeSource t ref hstate rfl rfl rfl ?_
      refine (holdings_update s rfl).trans ?_
      rw [holding_loading, hholding]
    | some state =>
      cases state with
      | loading => exact .same ⟨rfl, rfl, rfl⟩ quiet_nil rfl
      | loaded => exact effect_answerPublished hholding
      | failed => exact effect_answerPublished hholding

end

theorem effect_published {ref : ctx.Ref} {source : Option (Source V)} {loadReceipt : LoadReceipt V}
    {state : SourceState} (hstate : state ≠ .loading)
    (hstack : s.frames t = .loading ref :: below) :
    Effect s (answerLoad (publishSource s ref.1.cacheKey source loadReceipt state) t below
      loadReceipt).1 [] := by
  have hself : s.holdings t =
      { holding below with sources := ref.1.cacheKey :: (holding below).sources } := by
    rw [State.holdings, hstack, holding_loading]
  refine .dropSource t ref state (holding below).sources hstate rfl rfl rfl (by rw [hself]) ?_
  refine (holdings_update s rfl).trans ?_
  rw [holding_returnLoadReceipt, hself]

theorem effect_sourceReturns {ref : ctx.Ref} {result : Except V (Option (Source V))}
    (hstack : s.frames t = .loading ref :: below) :
    Effect s (sourceReturns s t ref result below).1 (sourceReturns s t ref result below).2 := by
  rw [sourceReturns.eq_def]
  dsimp only
  split
  · exact effect_published (by decide) hstack
  · exact effect_published (by decide) hstack
  · split_ifs
    · exact effect_published (by decide) hstack
    · exact effect_published (by decide) hstack

section

variable {ref : ctx.Ref} {path : List Text} {loadReceipt : LoadReceipt V}

include ref path loadReceipt

theorem effect_materializerReturns {source : Option (Source V)}
    {result : Except V (Option (Artifact V))}
    (hstack : s.frames t = .materializing ref path loadReceipt source :: below) :
    Effect s (materializerReturns s t ref path loadReceipt result below).1
      (materializerReturns s t ref path loadReceipt result below).2 := by
  have hself : s.holdings t =
      { holding below with
        keys := ref.1.cacheKey :: (holding below).keys
        running := ref.1.cacheKey :: (holding below).running } := by
    rw [State.holdings, hstack, holding_materializing]
  have hkeys : (s.holdings t).keys = ref.1.cacheKey :: (holding below).keys := by rw [hself]
  have hsources : (s.holdings t).sources = (holding below).sources := by rw [hself]
  have hrunning : ∀ key ∈ (s.holdings t).running,
      key = ref.1.cacheKey ∨ key ∈ (holding below).running := by
    rw [hself]
    exact fun key => mem_cons.1
  have hless : ∀ key ∈ (holding below).running, key ∈ (s.holdings t).running := by
    rw [hself]
    exact fun key => mem_cons_of_mem _
  rw [materializerReturns.eq_def]
  dsimp only
  split
  · exact effect_publishFailure hkeys hsources hrunning hless
  · exact effect_publishFailure hkeys hsources hrunning hless
  · next artifact =>
    split_ifs with hvalid
    · refine .drop t ref .ready (holding below) (quiet_answered _) (by decide) rfl rfl
        (fun _ => ⟨artifact, hvalid, update_self _ _ _⟩)
        (fun key hkey => update_of_ne hkey _ _) hkeys hsources hrunning hless ?_
      refine (holdings_update s rfl).trans ?_
      rw [holding_returnReceipt]
    · exact effect_publishFailure hkeys hsources hrunning hless

theorem effect_sourceAnswered (hstack : s.frames t = .sourced ref path (some loadReceipt) :: below)
    : Effect s (sourceAnswered s t ref path loadReceipt below).1
      (sourceAnswered s t ref path loadReceipt below).2 := by
  have hself : s.holdings t =
      { holding below with keys := ref.1.cacheKey :: (holding below).keys } := by
    rw [State.holdings, hstack, holding_sourced]
  rw [sourceAnswered.eq_def]
  split
  · exact effect_publishFailure (by rw [hself]) (by rw [hself])
      (fun key hkey => .inr (by rwa [hself] at hkey)) fun key hkey => by rwa [hself]
  · refine .run t ref (holding below).keys ⟨rfl, rfl, rfl⟩ (by rw [hself]) ?_ ?_
    · intro key hkey
      rw [hself] at hkey
      exact running_subset below hkey
    · refine (holdings_update s rfl).trans ?_
      rw [holding_materializing, hself]

end

theorem effect_evictOne {identity : Text} :
    Effect s (evictOne s identity).1 (evictOne s identity).2 := by
  rw [evictOne]
  cases ctx.artifactIndex identity with
  | none => exact .refl s
  | some ref =>
    dsimp only
    split_ifs with hloading hpresent
    · exact .refl s
    · obtain ⟨hstate, hsourceState⟩ := not_or.1 hloading
      exact .evict ref.1.cacheKey hstate hsourceState rfl rfl
        (fun other hother => update_of_ne hother _ _) rfl
    · exact .refl s

theorem effect_proceed : Effect s (proceed s t).1 (proceed s t).2 := by
  have hself : ∀ {stack}, s.frames t = stack → holding stack = s.holdings t := fun hstack => by
    rw [State.holdings, hstack]
  rw [proceed.eq_def]
  split
  · next hstack => exact effect_loadOne ((hself hstack).symm ▸ rfl)
  · next hstack => exact effect_setStack ((hself hstack).symm ▸ rfl) quiet_nil
  · next ref path failures below hstack =>
    have hheld := hself hstack
    exact effect_publishFailure (by rw [← hheld, holding_dependencies])
      (by rw [← hheld, holding_dependencies])
      (fun key hkey => .inr (by rwa [← hheld] at hkey)) fun key hkey => by rwa [← hheld]
  · next hstack => exact effect_setStack ((hself hstack).symm ▸ rfl) quiet_nil
  · next hstack => exact effect_sourceAnswered hstack
  · next hstack => exact effect_loadSourceOne ((hself hstack).symm ▸ rfl)
  · exact .refl s

/-- **Inversion**: every section is of one of the kinds. -/
theorem act_effect (s : State ctx τ V) (a : Action τ V) : Effect s (act s a).1 (act s a).2 := by
  rw [act.eq_def]
  split
  · split_ifs
    · exact effect_setStack rfl quiet_nil
    · exact .refl s
  · split_ifs
    · exact effect_setStack rfl quiet_nil
    · exact .refl s
  · split_ifs
    · exact effect_evictOne
    · exact .refl s
  · split_ifs
    · exact .refl s
    · exact effect_proceed
  · split
    · next hstack => exact effect_sourceReturns hstack
    · exact .refl s
  · split
    · next hstack => exact effect_materializerReturns hstack
    · exact .refl s

end

/-- Every key in state `loading` has one thread that put it there, and every artifact
that is ready has been checked. -/
structure Sound (s : State ctx τ V) : Prop where
  keys : Owned (fun key => s.tables.states key = some .loading) fun t => (s.holdings t).keys
  sources : Owned (fun key => s.tables.sourceStates key = some .loading)
    fun t => (s.holdings t).sources
  ready : ∀ key, s.tables.states key = some .ready → ∃ (ref : ctx.Ref) (artifact : Artifact V),
    ref.1.cacheKey = key ∧ s.tables.artifacts key = some artifact ∧
      artifactValid ref artifact = true

omit [DecidableEq τ] in
theorem owned_initial {σ : Type} {loading : σ} :
    Owned (fun _ : String => (none : Option σ) = some loading) fun _ : τ => ([] : List String) where
  nodup _ := nodup_nil
  owner _ _ _ h := by cases h
  marked _ := by simp

omit [DecidableEq τ] in
theorem sound_initial : Sound ({} : State ctx τ V) where
  keys := owned_initial
  sources := owned_initial
  ready _ h := by cases h

section

variable {σ : Type} {states : String → Option σ} {key : String} {loading : σ}

theorem marked_take (j : String) : update states key (some loading) j = some loading ↔
      states j = some loading ∨ j = key := by
  by_cases hj : j = key
  · subst hj
    simp
  · simp [hj]

theorem marked_drop {state : Option σ} (hstate : state ≠ some loading) (j : String) :
    update states key state j = some loading ↔ states j = some loading ∧ j ≠ key := by
  by_cases hj : j = key
  · subst hj
    simp [hstate]
  · simp [hj]

/-- A key that is not in state `loading` can be forgotten. -/
theorem marked_forget (hstate : states key ≠ some loading) (j : String) :
    update states key none j = some loading ↔ states j = some loading := by
  by_cases hj : j = key
  · subst hj
    simp [hstate]
  · simp [hj]

end

section

variable {s s' : State ctx τ V} {events : List (Event V)}

/-- What a section leaves as it is for one thread, it leaves for all. -/
theorem field_update {β : Type} (field : Holding → β) {held : τ → Holding} {t : τ} {new : Holding}
    (h : field new = field (held t)) (u : τ) :
    field (update held t new u) = field (held u) := by
  by_cases hu : u = t
  · subst hu
    rw [update_self, h]
  · rw [update_of_ne hu]

omit [DecidableEq τ] in
theorem Sound.of_ready (h : Sound s) {key : String}
    (hstates : s'.tables.states key = s.tables.states key)
    (hartifacts : s'.tables.artifacts key = s.tables.artifacts key)
    (hready : s'.tables.states key = some .ready) : ∃ (ref : ctx.Ref) (artifact : Artifact V),
      ref.1.cacheKey = key ∧ s'.tables.artifacts key = some artifact ∧
        artifactValid ref artifact = true := by
  rw [hartifacts]
  exact h.ready key (hstates ▸ hready)

/-- **Step lemma**: every kind of section keeps soundness. -/
theorem Sound.effect (h : Sound s) (heffect : Effect s s' events) : Sound s' := by
  cases heffect with
  | same hsame hquiet hholdings =>
    refine ⟨h.keys.congr (fun _ => by rw [hsame.states]) fun _ => by rw [hholdings],
      h.sources.congr (fun _ => by rw [hsame.sourceStates]) fun _ => by rw [hholdings], ?_⟩
    exact fun key => h.of_ready (by rw [hsame.states]) (by rw [hsame.artifacts])
  | take t ref hfree hstates hsourceStates hartifacts hholdings =>
    have hself : (s'.holdings t).keys = ref.1.cacheKey :: (s.holdings t).keys := by
      rw [hholdings, update_self]
    have hothers : ∀ u, u ≠ t → (s'.holdings u).keys = (s.holdings u).keys := fun u hu => by
      rw [hholdings, update_of_ne hu]
    refine ⟨h.keys.take (by simp [hfree]) hself hothers
      (fun j => by rw [hstates, marked_take]),
      h.sources.congr (fun _ => by rw [hsourceStates]) fun u => ?_, fun key hready => ?_⟩
    · rw [hholdings]
      exact field_update Holding.sources (by rfl) u
    · have hkey : key ≠ ref.1.cacheKey := by
        rintro rfl
        rw [hstates, update_self] at hready
        cases hready
      exact h.of_ready (by rw [hstates, update_of_ne hkey]) (by rw [hartifacts]) hready
  -- the thread runs on with the marks that it holds
  | run t ref keys hsame hkeys hrunning hholdings =>
    refine ⟨h.keys.congr (fun _ => by rw [hsame.states]) fun u => ?_,
      h.sources.congr (fun _ => by rw [hsame.sourceStates]) fun u => ?_,
      fun key => h.of_ready (by rw [hsame.states]) (by rw [hsame.artifacts])⟩
    · rw [hholdings]
      exact field_update Holding.keys (by rfl) u
    · rw [hholdings]
      exact field_update Holding.sources (by rfl) u
  | drop t ref state below hquiet hstate hstates hsourceStates hready hartifacts hkeys hsources
      hrunning hless hholdings =>
    have hself : (s.holdings t).keys = ref.1.cacheKey :: (s'.holdings t).keys := by
      rw [hkeys, hholdings, update_self]
    have hothers : ∀ u, u ≠ t → (s'.holdings u).keys = (s.holdings u).keys := fun u hu => by
      rw [hholdings, update_of_ne hu]
    -- what replaces the mark of the loader is no mark
    have hdone : some state ≠ some ArtifactState.loading := fun heq => hstate (Option.some.inj heq)
    refine ⟨h.keys.drop hself hothers (fun j => by rw [hstates, marked_drop hdone]),
      h.sources.congr (fun _ => by rw [hsourceStates]) fun u => ?_, fun key hfound => ?_⟩
    · rw [hholdings]
      exact field_update Holding.sources hsources.symm u
    · -- only a valid artifact is recorded as ready
      by_cases hkey : key = ref.1.cacheKey
      · subst hkey
        rw [hstates, update_self] at hfound
        obtain ⟨artifact, hvalid, hartifact⟩ := hready (Option.some.inj hfound)
        exact ⟨ref, artifact, rfl, hartifact, hvalid⟩
      · exact h.of_ready (by rw [hstates, update_of_ne hkey]) (hartifacts key hkey) hfound
  | takeSource t ref hfree hstates hsourceStates hartifacts hholdings =>
    have hself : (s'.holdings t).sources = ref.1.cacheKey :: (s.holdings t).sources := by
      rw [hholdings, update_self]
    have hothers : ∀ u, u ≠ t → (s'.holdings u).sources = (s.holdings u).sources := fun u hu => by
      rw [hholdings, update_of_ne hu]
    refine ⟨h.keys.congr (fun _ => by rw [hstates]) fun u => ?_,
      h.sources.take (by simp [hfree]) hself hothers
        (fun j => by rw [hsourceStates, marked_take]),
      fun key => h.of_ready (by rw [hstates]) (by rw [hartifacts])⟩
    rw [hholdings]
    exact field_update Holding.keys (by rfl) u
  | dropSource t ref state sources hstate hstates hsourceStates hartifacts hsources hholdings =>
    have hself : (s.holdings t).sources = ref.1.cacheKey :: (s'.holdings t).sources := by
      rw [hsources, hholdings, update_self]
    have hothers : ∀ u, u ≠ t → (s'.holdings u).sources = (s.holdings u).sources := fun u hu => by
      rw [hholdings, update_of_ne hu]
    have hdone : some state ≠ some SourceState.loading := fun heq => hstate (Option.some.inj heq)
    refine ⟨h.keys.congr (fun _ => by rw [hstates]) fun u => ?_,
      h.sources.drop hself hothers (fun j => by rw [hsourceStates, marked_drop hdone]),
      fun key => h.of_ready (by rw [hstates]) (by rw [hartifacts])⟩
    rw [hholdings]
    exact field_update Holding.keys (by rfl) u
  | evict key hstate hsourceState hstates hsourceStates hartifacts hholdings =>
    refine ⟨h.keys.congr (fun j => by rw [hstates, marked_forget hstate])
      fun _ => by rw [hholdings],
      h.sources.congr (fun j => by rw [hsourceStates, marked_forget hsourceState])
        fun _ => by rw [hholdings], fun other hready => ?_⟩
    -- an evicted key is not ready
    have hother : other ≠ key := by
      rintro rfl
      rw [hstates, update_self] at hready
      cases hready
    exact h.of_ready (by rw [hstates, update_of_ne hother]) (hartifacts other hother)
      hready

theorem Sound.after (h : Sound s) (a : Action τ V) : Sound (act s a).1 := h.effect (act_effect s a)

end

end PooFlow.Standards

import PooFlow.Standards.Sections

namespace PooFlow.Standards

open Foundation List Function Relation

variable {τ V : Type} {ctx : Context}

/-- Thread `t` sleeps at an artifact or a source whose key is in state `loading`. -/
def State.WaitsFor (s : State ctx τ V) (t : τ) (key : String) : Prop :=
  s.asleep t = true ∧ ∃ ref : ctx.Ref, ref.1.cacheKey = key ∧
    ((∃ path below, s.frames t = .materialize ref.1.identity path :: below ∧
        s.tables.states key = some .loading) ∨
      ∃ below, s.frames t = .loadSource ref.1.identity :: below ∧
        s.tables.sourceStates key = some .loading)

/-- A thread waits for a key in state `loading`, and every thread that put a key in state
`loading` sleeps. -/
def Deadlocked (s : State ctx τ V) : Prop :=
  (∃ t key, s.WaitsFor t key) ∧
    ∀ t, (s.holdings t).keys ≠ [] ∨ (s.holdings t).sources ≠ [] → s.asleep t = true

def Context.DependsOn (ctx : Context) (key key' : String) : Prop :=
  ∃ ref ref' : ctx.Ref, ref.1.cacheKey = key ∧ ref'.1.cacheKey = key' ∧
    ref'.1.identity ∈ ref.1.dependencies ∧ ref'.1.identity ≠ ref.1.identity

def Context.Acyclic (ctx : Context) : Prop :=
  ∀ key, ¬Relation.TransGen ctx.DependsOn key key

def Action.Outer (s : State ctx τ V) : Action τ V → Prop
  | .materialize t _ => s.frames t = []
  | .loadSource t _ => s.frames t = []
  | .evict t _ => s.frames t = []
  | _ => True

/-- The identity is a dependency of the artifact that is being loaded, if one is. -/
def AskedBy : List (Frame ctx V) → Text → Prop
  | .dependencies ref _ _ _ :: _, identity => identity ∈ ref.1.dependencies
  | _, _ => True

/-- The artifacts below are being loaded, each for the one below it, and make up the
path. -/
def Nested : List (Frame ctx V) → List Text → Prop
  | [], path => path = []
  | .dependencies ref above rest _ :: below, path =>
    path = ref.1.identity :: above ∧ rest ⊆ ref.1.dependencies ∧ ref.1.identity ∉ above ∧
      AskedBy below ref.1.identity ∧ Nested below above
  | _, _ => False

/-- An artifact is being loaded over `below`. -/
structure Loads (ref : ctx.Ref) (path : List Text) (below : List (Frame ctx V)) : Prop where
  fresh : ref.1.identity ∉ path
  asked : AskedBy below ref.1.identity
  nested : Nested below path

/-- The source that is loaded over `below` is that of an artifact, if of any. -/
def ForArtifact (below : List (Frame ctx V)) : Prop :=
  below = [] ∨ ∃ ref path tail, below = .sourced ref path none :: tail ∧ Loads ref path tail

def Stacked : List (Frame ctx V) → Prop
  | [] => True
  | .materialize identity path :: below => AskedBy below identity ∧ Nested below path
  | .dependencies ref path rest _ :: below => rest ⊆ ref.1.dependencies ∧ Loads ref path below
  | .sourced ref path _ :: below => Loads ref path below
  | .materializing ref path _ _ :: below => Loads ref path below
  | .loadSource _ :: below => ForArtifact below
  | .loading _ :: below => ForArtifact below

variable {path : List Text} {below : List (Frame ctx V)}

theorem nested_dependencies {ref : ctx.Ref} {rest : List Text} {failure : Option (List (Failure V))}
    (hrest : rest ⊆ ref.1.dependencies) (hloads : Loads ref path below) :
    Nested (.dependencies ref path rest failure :: below) (ref.1.identity :: path) :=
  ⟨rfl, hrest, hloads.fresh, hloads.asked, hloads.nested⟩

theorem Nested.stacked_return (h : Nested below path) (receipt : Receipt V) :
    Stacked (returnReceipt receipt below) := by
  cases below with
  | nil => trivial
  | cons frame tail =>
    cases frame with
    | dependencies ref above rest failure =>
      obtain ⟨-, hrest, hfresh, hasked, hnested⟩ := h
      exact ⟨hrest, hfresh, hasked, hnested⟩
    | _ => exact h.elim

theorem ForArtifact.stacked_return (h : ForArtifact below) (loadReceipt : LoadReceipt V) :
    Stacked (returnLoadReceipt loadReceipt below) := by
  rcases h with rfl | ⟨ref, path, tail, rfl, hloads⟩
  · trivial
  · exact hloads

theorem Nested.sources (h : Nested below path) : (holding below).sources = [] := by
  induction below generalizing path with
  | nil => rfl
  | cons frame tail ih =>
    cases frame with
    | dependencies ref above rest failure => exact ih h.2.2.2.2
    | _ => exact h.elim

theorem Nested.before (h : Nested below path) {ref : ctx.Ref}
    (hasked : AskedBy below ref.1.identity) (hfresh : ref.1.identity ∉ path) {key : String}
    (hkey : key ∈ (holding below).keys) : TransGen ctx.DependsOn key ref.1.cacheKey := by
  induction below generalizing path ref with
  | nil => cases hkey
  | cons frame tail ih =>
    cases frame with
    | dependencies asking above rest failure =>
      obtain ⟨rfl, -, hasking, haskedBy, hnested⟩ := h
      have hdepends : ctx.DependsOn asking.1.cacheKey ref.1.cacheKey :=
        ⟨asking, ref, rfl, rfl, hasked, fun heq => hfresh (heq ▸ mem_cons_self)⟩
      rcases mem_cons.1 hkey with rfl | hkey
      · exact .single hdepends
      · exact .tail (ih hnested haskedBy hasking hkey) hdepends
    | _ => exact h.elim

variable [DecidableEq τ]

inductive Sleeper (s : State ctx τ V) (t : τ) : Prop where
  | artifact (ref : ctx.Ref) (path : List Text) (below : List (Frame ctx V))
      (hstack : s.frames t = .materialize ref.1.identity path :: below)
      (hfresh : ref.1.identity ∉ path)
      (hstate : s.tables.states ref.1.cacheKey = some .loading)
  | source (ref : ctx.Ref) (below : List (Frame ctx V))
      (hstack : s.frames t = .loadSource ref.1.identity :: below)
      (hstate : s.tables.sourceStates ref.1.cacheKey = some .loading)

/-- The stacks follow the dependencies, and nobody sleeps at a key that is not in state
`loading`. -/
structure Orderly (s : State ctx τ V) : Prop where
  stacked : ∀ t, Stacked (s.frames t)
  sleeper : ∀ t, s.asleep t = true → Sleeper s t

/-- Keys in state `loading` stay in it. -/
structure KeepsLoading (s s' : State ctx τ V) : Prop where
  states : ∀ key, s.tables.states key = some .loading → s'.tables.states key = some .loading
  sourceStates : ∀ key, s.tables.sourceStates key = some .loading →
    s'.tables.sourceStates key = some .loading

inductive Move (s s' : State ctx τ V) : Prop where
  | stay (hstacks : s'.frames = s.frames) (hasleep : s'.asleep = s.asleep)
      (hkeeps : KeepsLoading s s')
  | sleep (t : τ) (hs : s' = s.wait t) (hsleeper : Sleeper s t)
  | go (t : τ) (stack : List (Frame ctx V))
      (hawake : s.asleep t = false ∨ Callable (s.frames t) = true)
      (hstacks : s'.frames = Function.update s.frames t stack) (hstacked : Stacked stack)
      (hasleep : (s'.asleep = s.asleep ∧ KeepsLoading s s') ∨ s'.asleep = fun _ => false)

section

variable {s s' : State ctx τ V} {t : τ} {below : List (Frame ctx V)} {path : List Text}

omit [DecidableEq τ] in
theorem KeepsLoading.rfl : KeepsLoading s s := ⟨fun _ => id, fun _ => id⟩

omit [DecidableEq τ] in
theorem Sleeper.not_callable (h : Sleeper s t) : Callable (s.frames t) = false := by
  cases h with
  | artifact ref path below hstack => rw [hstack, Callable.eq_def]
  | source ref below hstack => rw [hstack, Callable.eq_def]

omit [DecidableEq τ] in
theorem Sleeper.keeps (h : Sleeper s t) (hstack : s'.frames t = s.frames t)
    (hkeeps : KeepsLoading s s') : Sleeper s' t := by
  cases h with
  | artifact ref path below hself hfresh hstate =>
    exact .artifact ref path below (hstack.trans hself) hfresh (hkeeps.states _ hstate)
  | source ref below hself hstate =>
    exact .source ref below (hstack.trans hself) (hkeeps.sourceStates _ hstate)

theorem Orderly.move (h : Orderly s) (hmove : Move s s') : Orderly s' := by
  cases hmove with
  | stay hstacks hasleep hkeeps =>
    refine ⟨fun t => hstacks ▸ h.stacked t, fun t ht => ?_⟩
    exact (h.sleeper t (hasleep ▸ ht)).keeps (by rw [hstacks]) hkeeps
  | sleep t hs hsleeper =>
    subst hs
    refine ⟨h.stacked, fun u hu => ?_⟩
    by_cases hut : u = t
    · subst hut
      exact hsleeper.keeps rfl ⟨fun _ => id, fun _ => id⟩
    · rw [State.wait] at hu
      dsimp only at hu
      rw [update_of_ne hut] at hu
      exact (h.sleeper u hu).keeps rfl ⟨fun _ => id, fun _ => id⟩
  | go t stack hawake hstacks hstacked hasleep =>
    constructor
    · intro u
      rw [hstacks]
      by_cases hut : u = t
      · subst hut
        rwa [update_self]
      · rw [update_of_ne hut]
        exact h.stacked u
    · intro u hu
      rcases hasleep with ⟨hasleep, hkeeps⟩ | hasleep
      · rw [hasleep] at hu
        have hsleeper := h.sleeper u hu
        have hut : u ≠ t := by
          rintro rfl
          rcases hawake with hawake | hcallable
          · rw [hawake] at hu
            cases hu
          · rw [hsleeper.not_callable] at hcallable
            cases hcallable
        exact hsleeper.keeps (by rw [hstacks, update_of_ne hut]) hkeeps
      · rw [hasleep] at hu
        cases hu

theorem Move.refl (s : State ctx τ V) : Move s s := .stay rfl rfl .rfl

theorem move_setStack {stack : List (Frame ctx V)}
    (hawake : s.asleep t = false ∨ Callable (s.frames t) = true) (hstacked : Stacked stack) :
    Move s (s.setStack t stack) :=
  .go t stack hawake rfl hstacked (.inl ⟨rfl, ⟨fun _ => id, fun _ => id⟩⟩)

theorem move_answer (hawake : s.asleep t = false) (h : Nested below path) (receipt : Receipt V) :
    Move s (answer s t below receipt).1 :=
  move_setStack (.inl hawake) (h.stacked_return receipt)

theorem move_answerLoad (hawake : s.asleep t = false) (h : ForArtifact below)
    (loadReceipt : LoadReceipt V) : Move s (answerLoad s t below loadReceipt).1 :=
  move_setStack (.inl hawake) (h.stacked_return loadReceipt)

variable {ref : ctx.Ref} {identity : Text}

theorem move_publishFailure {failure : Failure V} {loadReceipt : Option (LoadReceipt V)}
    (hawake : s.asleep t = false ∨ Callable (s.frames t) = true) (h : Nested below path) :
    Move s (publishFailure s t ref failure loadReceipt below).1 :=
  .go t _ hawake rfl (h.stacked_return _) (.inr rfl)

theorem keeps_update {σ : Type} {states : String → Option σ} {key : String} {loading : σ}
    (other : String) (h : states other = some loading) :
    update states key (some loading) other = some loading :=
  (marked_take other).2 (.inl h)

theorem move_loadOne (hawake : s.asleep t = false)
    (hstack : s.frames t = .materialize identity path :: below) (hasked : AskedBy below identity)
    (h : Nested below path) : Move s (loadOne s t identity path below).1 := by
  rw [loadOne]
  dsimp only
  split_ifs with hactive hpath
  · exact move_answer hawake h _
  · exact move_answer hawake h _
  · cases hindex : ctx.artifactIndex identity with
    | none => exact move_answer hawake h _
    | some ref =>
      obtain rfl := ctx.artifactIndex_some hindex
      dsimp only
      cases hstate : s.tables.states ref.1.cacheKey with
      | none =>
        exact .go t _ (.inl hawake) rfl ⟨List.Subset.refl _, hpath, hasked, h⟩
          (.inl ⟨rfl, ⟨keeps_update, fun _ => id⟩⟩)
      | some state =>
        cases state with
        | loading => exact .sleep t rfl (.artifact ref path below hstack hpath hstate)
        | ready => exact move_answer hawake h _
        | failed =>
          dsimp only
          cases s.tables.failures ref.1.cacheKey with
          | some failure => exact move_answer hawake h _
          | none => exact .refl s

theorem move_answerPublished (hawake : s.asleep t = false) (h : ForArtifact below) :
    Move s (answerPublished s t ref below).1 := by
  rw [answerPublished.eq_def]
  cases s.tables.loadReceipts ref.1.cacheKey with
  | some loadReceipt => exact move_answerLoad hawake h _
  | none => exact .refl s

theorem move_loadSourceOne (hawake : s.asleep t = false)
    (hstack : s.frames t = .loadSource identity :: below) (h : ForArtifact below) :
    Move s (loadSourceOne s t identity below).1 := by
  rw [loadSourceOne]
  cases hindex : ctx.artifactIndex identity with
  | none => exact move_answerLoad hawake h _
  | some ref =>
    obtain rfl := ctx.artifactIndex_some hindex
    dsimp only
    cases hstate : s.tables.sourceStates ref.1.cacheKey with
    | none =>
      exact .go t _ (.inl hawake) rfl h (.inl ⟨rfl, ⟨fun _ => id, keeps_update⟩⟩)
    | some state =>
      cases state with
      | loading => exact .sleep t rfl (.source ref below hstack hstate)
      | loaded => exact move_answerPublished hawake h
      | failed => exact move_answerPublished hawake h

theorem move_sourceReturns {result : Except V (Option (Source V))}
    (hstack : s.frames t = .loading ref :: below) (h : ForArtifact below) :
    Move s (sourceReturns s t ref result below).1 := by
  have hcallable : s.asleep t = false ∨ Callable (s.frames t) = true :=
    .inr (by rw [hstack, Callable])
  rw [sourceReturns.eq_def]
  dsimp only
  split
  · exact .go t _ hcallable rfl (h.stacked_return _) (.inr rfl)
  · exact .go t _ hcallable rfl (h.stacked_return _) (.inr rfl)
  · split_ifs
    · exact .go t _ hcallable rfl (h.stacked_return _) (.inr rfl)
    · exact .go t _ hcallable rfl (h.stacked_return _) (.inr rfl)

theorem move_materializerReturns {loadReceipt : LoadReceipt V} {source : Option (Source V)}
    {result : Except V (Option (Artifact V))}
    (hstack : s.frames t = .materializing ref path loadReceipt source :: below)
    (h : Loads ref path below) :
    Move s (materializerReturns s t ref path loadReceipt result below).1 := by
  have hcallable : s.asleep t = false ∨ Callable (s.frames t) = true :=
    .inr (by rw [hstack, Callable])
  rw [materializerReturns.eq_def]
  dsimp only
  split
  · exact move_publishFailure hcallable h.nested
  · exact move_publishFailure hcallable h.nested
  · split_ifs
    · exact .go t _ hcallable rfl (h.nested.stacked_return _) (.inr rfl)
    · exact move_publishFailure hcallable h.nested

theorem move_evictOne : Move s (evictOne s identity).1 := by
  rw [evictOne]
  cases ctx.artifactIndex identity with
  | none => exact .refl s
  | some ref =>
    dsimp only
    split_ifs with hloading hpresent
    · exact .refl s
    · obtain ⟨hstate, hsourceState⟩ := not_or.1 hloading
      exact .stay rfl rfl ⟨fun key => (marked_forget hstate key).2,
        fun key => (marked_forget hsourceState key).2⟩
    · exact .refl s

theorem move_proceed (hawake : s.asleep t = false) (h : Stacked (s.frames t)) :
    Move s (proceed s t).1 := by
  rw [proceed.eq_def]
  split
  · next hstack =>
    rw [hstack] at h
    exact move_loadOne hawake hstack h.1 h.2
  · next hstack =>
    rw [hstack] at h
    obtain ⟨hrest, hloads⟩ := h
    obtain ⟨hdependency, hrest⟩ := cons_subset.1 hrest
    exact move_setStack (.inl hawake) ⟨hdependency, nested_dependencies hrest hloads⟩
  · next hstack =>
    rw [hstack] at h
    exact move_publishFailure (.inl hawake) h.2.nested
  · next hstack =>
    rw [hstack] at h
    exact move_setStack (.inl hawake) (.inr ⟨_, _, _, rfl, h.2⟩)
  · next hstack =>
    rw [hstack] at h
    rw [sourceAnswered.eq_def]
    split
    · exact move_publishFailure (.inl hawake) h.nested
    · exact move_setStack (.inl hawake) h
  · next hstack =>
    rw [hstack] at h
    exact move_loadSourceOne hawake hstack h
  · exact .refl s

/-- **Inversion** for stacks and sleepers. -/
theorem act_move (h : Orderly s) {a : Action τ V} (houter : a.Outer s) : Move s (act s a).1 := by
  rw [act.eq_def]
  split
  · next u identity =>
    split_ifs with hcallable
    · refine move_setStack (.inr hcallable) ?_
      rw [show s.frames u = [] from houter]
      exact ⟨trivial, rfl⟩
    · exact .refl s
  · next u identity =>
    split_ifs with hcallable
    · refine move_setStack (.inr hcallable) ?_
      rw [show s.frames u = [] from houter]
      exact .inl rfl
    · exact .refl s
  · split_ifs
    · exact move_evictOne
    · exact .refl s
  · next u =>
    split_ifs with hasleep
    · exact .refl s
    · exact move_proceed (Bool.eq_false_iff.2 hasleep) (h.stacked u)
  · next u result =>
    split
    · next hstack =>
      have hstacked := h.stacked u
      rw [hstack] at hstacked
      exact move_sourceReturns hstack hstacked
    · exact .refl s
  · next u result =>
    split
    · next hstack =>
      have hstacked := h.stacked u
      rw [hstack] at hstacked
      exact move_materializerReturns hstack hstacked
    · exact .refl s

omit [DecidableEq τ] in
theorem orderly_initial : Orderly ({} : State ctx τ V) :=
  ⟨fun _ => trivial, fun _ h => by cases h⟩

end

section

variable {s : State ctx τ V}

omit [DecidableEq τ] in
/-- A sleeper loads no source. -/
theorem Orderly.sources_of_asleep (h : Orderly s) {t : τ} (hasleep : s.asleep t = true) :
    (s.holdings t).sources = [] := by
  have hstacked := h.stacked t
  cases h.sleeper t hasleep with
  | artifact ref path below hstack =>
    rw [hstack] at hstacked
    rw [State.holdings, hstack]
    exact hstacked.2.sources
  | source ref below hstack =>
    rw [hstack] at hstacked
    rw [State.holdings, hstack]
    rcases hstacked with rfl | ⟨ref, path, tail, rfl, hloads⟩
    · rfl
    · exact hloads.nested.sources

omit [DecidableEq τ] in
theorem Orderly.artifact_of_asleep (h : Orderly s) (hsound : Sound s)
    (hall : ∀ t, (s.holdings t).keys ≠ [] ∨ (s.holdings t).sources ≠ [] → s.asleep t = true)
    {t : τ} (hasleep : s.asleep t = true) :
    ∃ (ref : ctx.Ref) (path : List Text) (below : List (Frame ctx V)),
      s.frames t = .materialize ref.1.identity path :: below ∧ ref.1.identity ∉ path ∧
        s.tables.states ref.1.cacheKey = some .loading := by
  cases h.sleeper t hasleep with
  | artifact ref path below hstack hfresh hstate => exact ⟨ref, path, below, hstack, hfresh, hstate⟩
  | source ref below hstack hstate =>
    obtain ⟨u, hu⟩ := (hsound.sources.marked _).1 hstate
    have hasleep := hall u (.inr (ne_nil_of_mem hu))
    rw [h.sources_of_asleep hasleep] at hu
    cases hu

omit [DecidableEq τ] in
theorem Orderly.before_of_stack (h : Orderly s) {t : τ} {ref : ctx.Ref} {path : List Text}
    {below : List (Frame ctx V)} (hstack : s.frames t = .materialize ref.1.identity path :: below)
    (hfresh : ref.1.identity ∉ path) {key : String} (hkey : key ∈ (s.holdings t).keys) :
    TransGen ctx.DependsOn key ref.1.cacheKey := by
  have hstacked := h.stacked t
  rw [hstack] at hstacked
  rw [State.holdings, hstack] at hkey
  exact hstacked.2.before hstacked.1 hfresh hkey

omit [DecidableEq τ] in
theorem Orderly.not_deadlocked (h : Orderly s) (hsound : Sound s) (hacyclic : ctx.Acyclic) :
    ¬Deadlocked s := by
  rintro ⟨⟨t, key, hasleep, _⟩, hall⟩
  let waits (u : τ) (k : String) : Prop := s.asleep u = true ∧
    ∃ (ref : ctx.Ref) (path : List Text) (below : List (Frame ctx V)),
      s.frames u = .materialize ref.1.identity path :: below ∧ ref.1.identity ∉ path ∧
        s.tables.states k = some .loading ∧ ref.1.cacheKey = k
  have hwaits : ∀ u, s.asleep u = true → ∃ k, waits u k := by
    intro u hu
    obtain ⟨ref, path, below, hstack, hfresh, hstate⟩ := h.artifact_of_asleep hsound hall hu
    exact ⟨ref.1.cacheKey, hu, ref, path, below, hstack, hfresh, hstate, rfl⟩
  obtain ⟨k, hk⟩ := hwaits t hasleep
  have hfinite : {k | k ∈ ctx.refs.map ArtifactRef.cacheKey}.Finite := finite_toSet _
  obtain ⟨u, j, hholds, hruns⟩ := @exists_running τ String
    (fun u j => j ∈ (s.holdings u).keys) waits (TransGen ctx.DependsOn) _
    hfinite hacyclic (fun _ _ _ => TransGen.trans)
    (by rintro v l ⟨-, ref, -, -, -, -, -, rfl⟩
        exact mem_map_of_mem ref.2)
    (by rintro v l ⟨-, -, -, -, -, -, hstate, -⟩
        exact (hsound.keys.marked l).1 hstate)
    (by rintro v i l hi ⟨-, ref, path, below, hstack, hfresh, -, rfl⟩
        exact h.before_of_stack hstack hfresh hi)
    t k hk
  have hu := hall u (.inl (ne_nil_of_mem hholds))
  obtain ⟨l, hl⟩ := hwaits u hu
  exact hruns l hl

end

/-- **No deadlock**: where no cache key depends on itself through other artifacts, no run
of any threads reaches a deadlock. -/
theorem acyclic_not_deadlocked (hacyclic : ctx.Acyclic) (actions : List (Action τ V))
    (houter : Along step (fun s a => Action.Outer s a) ({} : State ctx τ V) actions) :
    ¬Deadlocked (run step ({} : State ctx τ V) actions) := by
  have hstep : ∀ (s : State ctx τ V) a, Orderly s ∧ Sound s → a.Outer s →
      Orderly (step s a) ∧ Sound (step s a) := fun s a h ha =>
    ⟨h.1.move (act_move h.1 ha), h.2.after a⟩
  obtain ⟨horderly, hsound⟩ := houter.invariant hstep ⟨orderly_initial, sound_initial⟩
  exact horderly.not_deadlocked hsound hacyclic

def dependent (identity : Text) (dependencies : List Text) : ArtifactRef :=
  standardArtifactRef identity identity ⟨"1.0", by decide⟩ "json" unknownGeneration dependencies 0

def ownText : Text := ⟨"own", by decide⟩

def ownContext : Context := ⟨[dependent ownText [ownText]], nodup_singleton _⟩

theorem ownContext_acyclic : ownContext.Acyclic := by
  intro key hcycle
  obtain ⟨_, ⟨ref, ref', -, -, -, hne⟩, -⟩ := TransGen.head'_iff.1 hcycle
  have hsingle : ∀ ref : ownContext.Ref, ref.1 = dependent ownText [ownText] := fun ref =>
    mem_singleton.1 ref.2
  rw [hsingle ref, hsingle ref'] at hne
  exact hne rfl

/-- One thread loads the artifact and the other one sleeps. -/
theorem own_not_deadlocked : ¬Deadlocked (run step ({} : State ownContext Bool Unit)
      [.materialize true ownText, .materialize false ownText, .proceed true, .proceed false]) :=
  acyclic_not_deadlocked ownContext_acyclic _ ⟨rfl, rfl, trivial, trivial, trivial⟩

def leftText : Text := ⟨"left", by decide⟩

def rightText : Text := ⟨"right", by decide⟩

def mutualContext : Context where
  refs := [dependent leftText [rightText], dependent rightText [leftText]]
  distinct := by decide

def mutualRun : List (Action Bool Unit) :=
  [.materialize true leftText, .materialize false rightText, .proceed true, .proceed false,
    .proceed true, .proceed false, .proceed true, .proceed false]

theorem mutual_deadlock :
    Along step (fun s a => Action.Outer s a) ({} : State mutualContext Bool Unit) mutualRun ∧
      Deadlocked (run step ({} : State mutualContext Bool Unit) mutualRun) := by
  let right : mutualContext.Ref := ⟨dependent rightText [leftText], by decide⟩
  refine ⟨⟨rfl, rfl, trivial, trivial, trivial, trivial, trivial, trivial, trivial⟩,
    ⟨true, right.1.cacheKey, ?_, right, rfl, .inl ⟨_, _, rfl, ?_⟩⟩, fun t _ => ?_⟩
  · decide +kernel
  · decide +kernel
  · revert t
    decide +kernel

end PooFlow.Standards

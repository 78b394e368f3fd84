import PooFlow.Graph.Stream

namespace PooFlow

open Foundation Generated List GraphRunContext

namespace RuntimeGraphExecutor

variable {W V : Type} {executor : RuntimeGraphExecutor W V} {context : GraphRunContext W V}

def AllEnds (context : GraphRunContext W V) : Prop :=
  ∀ item ∈ context.pending, item.target = graphEnd

theorem whileLoop_of_ends {α : Type*}
    {step : GraphRunContext W V → Generated α (Halt W V) (GraphRunContext W V)}
    (descends : Descends busy step executor.rank)
    (hstep : ∀ context item rest, context.pending = item :: rest → item.target = graphEnd →
      step context = pure { context with pending := rest }) (h : AllEnds context) :
    whileLoop busy step executor.rank descends context =
      pure { context with pending := [] } := by
  induction hpending : context.pending generalizing context with
  | nil =>
    rw [whileLoop_idle (by rw [busy, hpending]; rfl), ← hpending]
  | cons item rest ih =>
    have hitem : item.target = graphEnd := h item (by rw [hpending]; exact mem_cons_self)
    have hrest : AllEnds { context with pending := rest } :=
      fun other hother => h other (by rw [hpending]; exact mem_cons_of_mem _ hother)
    rw [whileLoop_busy (by rw [busy, hpending]; rfl), hstep context item rest hpending hitem]
    exact ih hrest rfl

variable [RuntimeValue V] {traceKey : Option String} {item : PendingItem V}
  {rest : List (PendingItem V)} {context' : GraphRunContext W V}

theorem executeNextEventStep_end (hpending : context.pending = item :: rest)
    (hitem : item.target = graphEnd) :
    executor.executeNextEventStep traceKey context = pure { context with pending := rest } := by
  rw [executeNextEventStep, hpending]
  exact if_pos hitem

theorem executeNextStreamStep_end {publisher : StreamPublisher W V}
    (hpending : context.pending = item :: rest) (hitem : item.target = graphEnd) :
    executor.executeNextStreamStep traceKey publisher context =
      pure { context with pending := rest } := by
  rw [executeNextStreamStep, hpending]
  exact if_pos hitem

theorem executePending_of_ends (h : AllEnds context) :
    executor.executePending traceKey context = pure { context with pending := [] } :=
  whileLoop_of_ends _ (fun _ _ _ => executeNextEventStep_end) h

/-- A node has been started, or the queue still holds one. -/
def Starts (context : GraphRunContext W V) : Prop :=
  (∃ event ∈ context.events, event.kind = .nodeStart) ∨
    ∃ item ∈ context.pending, item.target ≠ graphEnd

theorem executeNextEventStep_starts (hstarts : Starts context) (hbusy : context.busy = true)
    (h : (executor.executeNextEventStep traceKey context).ended = .ok context') :
    Starts context' := by
  rw [executeNextEventStep] at h
  split at h
  · rename_i hnil
    simp [busy, hnil] at hbusy
  · rename_i item rest hitem
    dsimp only at h
    split at h
    · rename_i hend
      cases h
      refine hstarts.imp id ?_
      rintro ⟨other, hother, hne⟩
      rw [hitem] at hother
      rcases mem_cons.1 hother with rfl | hother
      · exact absurd hend hne
      · exact ⟨other, hother, hne⟩
    · rw [ended_bind, ended_silently, bind_eq_ok] at h
      obtain ⟨started, hstarted, h⟩ := h
      obtain ⟨event, hkind, hevents⟩ := startAndRunNode_events hstarted
      obtain ⟨event', -, hevents'⟩ := finishNode_events h
      refine .inl ⟨event, ?_, hkind⟩
      simp [hevents', hevents]

theorem nodeStart_mem_of_completed (hstarts : Starts context)
    (h : (executor.executePending traceKey context).ended = .ok context') :
    ∃ event ∈ context'.events, event.kind = .nodeStart := by
  obtain ⟨hstarts', hidle⟩ := whileLoop_invariant (executor.executeNextEventStep_descends traceKey)
    (fun _ _ => executeNextEventStep_starts) hstarts h
  have hnil : context'.pending = [] := by simpa [busy] using hidle
  rcases hstarts' with hstarted | ⟨item, hitem, -⟩
  · exact hstarted
  · rw [hnil] at hitem
    cases hitem

variable (executor traceKey) (context : GraphRunContext W V)

/-- The rounds of a synchronous stream only show the ends of nodes. -/
theorem executePending_yielded :
    ∀ event ∈ (executor.executePending traceKey context).yielded, event.kind = .nodeEnd := by
  apply whileLoop_yielded
  intro context event hevent
  rw [executeNextEventStep] at hevent
  split at hevent
  · cases hevent
  · dsimp only at hevent
    split at hevent
    · cases hevent
    · rename_i item rest _ _
      cases hstarted : executor.startAndRunNode traceKey { context with pending := rest }
          item.target item.branchUpdate with
      | error halt =>
        rw [hstarted] at hevent
        cases hevent
      | ok started =>
        rw [hstarted, silently_ok_bind] at hevent
        exact executor.finishNode_yielded _ _ _ _ event hevent

theorem streamEventsContext_yielded :
    ∃ shown, (executor.streamEventsContext traceKey context).yielded =
      context.startEvent :: shown ∧ ∀ event ∈ shown, event.kind ≠ .nodeStart := by
  refine ⟨(executor.executePending traceKey (context.publish context.startEvent) >>= _).yielded,
    rfl, ?_⟩
  intro event hevent
  have hrounds := executor.executePending_yielded traceKey
    (context.publish context.startEvent)
  cases hended : (executor.executePending traceKey (context.publish context.startEvent)).ended with
  | error halt =>
    rw [bind_of_error hended] at hevent
    simp [hrounds event hevent]
  | ok stopped =>
    rw [bind_of_ok hended] at hevent
    rcases mem_append.1 hevent with hevent | hevent
    · simp [hrounds event hevent]
    · obtain rfl := mem_singleton.1 hevent
      simp [completeEvent]

variable {executor traceKey}

theorem astreamEvents_yielded (hsync : executor.Synchronous) (initialState : RuntimeState V)
    (world : W) : (executor.astreamEvents traceKey initialState world).yielded =
      match (executor.streamEvents traceKey initialState world).ended with
      | .ok context => context.events
      | .error _ => [] := by
  rw [astreamEvents, arunEventsContext_eq, settled_eq hsync, streamEvents]
  cases (executor.streamEventsContext traceKey (executor.fromInitial initialState world)).ended with
  | error halt => rfl
  | ok context => exact append_nil _

def StreamsAgree (executor : RuntimeGraphExecutor W V) (traceKey : Option String)
    (runtime : RuntimeGraphRuntime W V) (streamMode : StreamModes) (initialState : RuntimeState V)
    (world : W) : Prop :=
  (executor.streamEvents traceKey initialState world).yielded =
      (executor.astreamEvents traceKey initialState world).yielded ∧
    (executor.stream traceKey runtime streamMode initialState world).yielded =
      (executor.astream traceKey runtime streamMode initialState world).yielded

variable {initialState : RuntimeState V} {world : W}

theorem streamEvents_ne_of_starts (hsync : executor.Synchronous)
    (hstarts : Starts (executor.fromInitial initialState world)) :
    (executor.streamEvents traceKey initialState world).yielded ≠
      (executor.astreamEvents traceKey initialState world).yielded := by
  intro hagree
  obtain ⟨shown, hshown, hkinds⟩ := executor.streamEventsContext_yielded traceKey
    (executor.fromInitial initialState world)
  rw [astreamEvents_yielded hsync, streamEvents, hshown, streamEventsContext_ended] at hagree
  set context := executor.fromInitial initialState world with hcontext
  cases hended : (executor.executePending traceKey (context.publish context.startEvent)).ended with
  | error halt =>
    rw [hended] at hagree
    cases hagree
  | ok stopped =>
    have hstarts' : Starts (context.publish context.startEvent) := by
      refine hstarts.imp ?_ id
      rintro ⟨event, hevent, hkind⟩
      exact ⟨event, mem_append_left _ hevent, hkind⟩
    -- the start of the node is recorded, and no stream of a run shows it
    obtain ⟨event, hevent, hkind⟩ := nodeStart_mem_of_completed hstarts' hended
    have hmem : event ∈ context.startEvent :: shown := by
      rw [hended] at hagree
      rw [hagree]
      show event ∈ (stopped.recordTrace traceKey).events ++ [_]
      rw [recordTrace_events]
      exact mem_append_left _ hevent
    rcases mem_cons.1 hmem with rfl | hmem
    · cases hkind
    · exact hkinds event hmem hkind

theorem streamEvents_eq_of_ends (hsync : executor.Synchronous)
    (hends : AllEnds (executor.fromInitial initialState world)) :
    (executor.streamEvents traceKey initialState world).yielded =
      (executor.astreamEvents traceKey initialState world).yielded := by
  have hpublished : AllEnds ((executor.fromInitial initialState world).publish
      (executor.fromInitial initialState world).startEvent) := hends
  rw [astreamEvents_yielded hsync, streamEvents, streamEventsContext,
    executePending_of_ends hpublished]
  cases traceKey <;> rfl

theorem stream_eq_of_ends (hsync : executor.Synchronous) {runtime : RuntimeGraphRuntime W V}
    {streamMode : StreamModes} (hends : ∀ world, AllEnds (executor.fromInitial initialState world))
    : (executor.stream traceKey runtime streamMode initialState world).yielded =
      (executor.astream traceKey runtime streamMode initialState world).yielded := by
  cases hopened : executor.openStream runtime streamMode initialState world with
  | error halt => rw [stream, astream, hopened]; rfl
  | ok opened =>
    have hopen : AllEnds (opened.2.publish opened.2.startEvent) := by
      rw [openStream_context hopened]
      exact hends (runtime.installSink world)
    have hloop : whileLoop busy (executor.executeNextStreamStep traceKey opened.1)
        executor.rank (executor.executeNextStreamStep_descends traceKey opened.1) (opened.2.publish opened.2.startEvent) =
        pure { opened.2.publish opened.2.startEvent with pending := [] } :=
      whileLoop_of_ends _ (fun _ _ _ => executeNextStreamStep_end) hopen
    have hcompleted : ∃ context, (executor.stream traceKey runtime streamMode initialState
        world).ended = .ok context := by
      rw [stream, hopened, silently_ok_bind, streamContext, hloop]
      exact ⟨_, rfl⟩
    obtain ⟨context, hcontext⟩ := hcompleted
    rw [astream_of_completed executor traceKey runtime streamMode hsync hcontext]

/-- The streams agree exactly when every first entry is the end of the graph. -/
theorem streams_agree_iff (hsync : executor.Synchronous) (runtime : RuntimeGraphRuntime W V)
    (streamMode : StreamModes) (initialState : RuntimeState V) (world : W) :
    StreamsAgree executor traceKey runtime streamMode initialState world ↔
      ∀ target ∈ indexEdges executor.plan.edges graphStart, target = graphEnd := by
  constructor
  · intro hagree target htarget
    by_contra hne
    have hmem : PendingItem.node target ∈ (executor.fromInitial initialState world).pending :=
      mem_map_of_mem htarget
    exact streamEvents_ne_of_starts hsync (.inr ⟨_, hmem, hne⟩) hagree.1
  · intro htargets
    have hends : ∀ world, AllEnds (executor.fromInitial initialState world) := by
      intro world item hitem
      obtain ⟨target, htarget, rfl⟩ := mem_map.1 hitem
      exact htargets target htarget
    exact ⟨streamEvents_eq_of_ends hsync (hends world), stream_eq_of_ends hsync hends⟩

end RuntimeGraphExecutor

def plainRuntime : RuntimeGraphRuntime Unit (List String) where
  threadId := none
  save := none
  installSink := id
  customValues := fun _ => []

/-- The streams of a review disagree: its start is shown by one of them only. -/
theorem review_streams_disagree :
    ¬RuntimeGraphExecutor.StreamsAgree (reviewGraph (.update .absent)) none plainRuntime
      (.one "values") ∅ () := by
  intro hagree
  exact RuntimeGraphExecutor.streamEvents_ne_of_starts (reviewGraph_synchronous _)
    (.inr ⟨.node "review", mem_singleton_self _, by decide⟩) hagree.1

theorem review_streams_agree_iff :
    RuntimeGraphExecutor.StreamsAgree (reviewGraph (.update .absent)) none plainRuntime
        (.one "values") ∅ () ↔
      ∀ target ∈ ["review"], target = graphEnd :=
  RuntimeGraphExecutor.streams_agree_iff (reviewGraph_synchronous _) plainRuntime _ _ _

end PooFlow

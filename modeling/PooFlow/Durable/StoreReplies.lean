import PooFlow.Durable.StoreAgreement

namespace PooFlow

open Foundation List
open Prod (snd)

variable {V : Type}

namespace GraphStoreCall

def «namespace» : GraphStoreCall V → Namespace
  | .put ns .. => ns
  | .get ns .. => ns
  | .delete ns _ => ns
  | .list ns => ns
  | .search ns => ns

def keys : GraphStoreCall V → List String
  | .put _ key .. => [key]
  | .get _ key _ => [key]
  | .delete _ key => [key]
  | _ => []

def newKeys : GraphStoreCall V → List String
  | .put _ key .. => [key]
  | _ => []

def Valid (call : GraphStoreCall V) : Prop :=
  call.namespace ≠ [] ∧ (∀ part ∈ call.namespace, part ≠ "") ∧ ∀ key ∈ call.newKeys, key ≠ ""

end GraphStoreCall

/-- Items listed in memory and on files: both refuse, or both list the items of
the store that meet `p`, in memory by namespace and key, on files by `rank`. -/
def ListedAlike {ι : Type} [LinearOrder ι] (store : MemoryRuntimeGraphStore V)
    (p : RuntimeGraphStoreItem V → Prop) (rank : Namespace → String → ι)
    (memory files : Except StoreError (GraphStoreReply V)) : Prop :=
  (∃ error, memory = .error error ∧ files = .error error) ∨
    ∃ listed filed, memory = .ok (.items listed) ∧ files = .ok (.items filed) ∧
      Listing store p byKey listed ∧ Listing store p rank filed

/-- The replies in memory, where `store` is what was stored, and on files. -/
def FilesAgree (sha256 : String → String) (store : MemoryRuntimeGraphStore V)
    (call : GraphStoreCall V) (memory files : Except StoreError (GraphStoreReply V)) : Prop :=
  match call with
  | .list ns => ListedAlike store (·.namespace = ns)
    (fun _ key => sha256 key ++ ".store.pickle") memory files
  | .search ns => ListedAlike store (·.namespace.take ns.length = ns)
    (fun ns key => toLex (FileRuntimeGraphStore.path sha256 ns key)) memory files
  | _ => files = memory

/-- The replies in memory, where `store` is what was stored, and in Turso, whose `get` goes through
the namespace twice. -/
def TursoAgree (store : MemoryRuntimeGraphStore V) (call : GraphStoreCall V)
    (memory turso : Except StoreError (GraphStoreReply V)) : Prop :=
  match call with
  | .search ns => ∃ listed found, memory = .ok (.items listed) ∧ turso = .ok (.items found) ∧
    Listing store (·.namespace.take ns.length = ns) byKey listed ∧ listed ⊆ found
  | .get ns _ again => again = ns → turso = memory
  | _ => turso = memory

namespace MemoryRuntimeGraphStore

variable (store : MemoryRuntimeGraphStore V)

theorem answer_refused {call : GraphStoreCall V} {error : StoreError}
    (h : normalizeNamespace call.namespace = .error error) :
    store.answer call = (.error error, store) := by
  cases call <;>
    (simp only [GraphStoreCall.namespace] at h
     simp only [answer, put, get, delete, list, search, h]
     rfl)

variable (ns : Namespace) (h : normalizeNamespace ns = .ok ns) (key : String)
include h

theorem put_accepted (now : ℕ) (value : V) : store.put now ns key value =
      (requireKey key).map fun _ =>
        (putItem (store.items.find? (ns, key)) now ns key value,
          ⟨store.items.put (ns, key) (putItem (store.items.find? (ns, key)) now ns key value)⟩) := by
  rw [put, h]
  cases requireKey key <;> rfl

theorem get_accepted : store.get ns key = .ok (store.items.find? (ns, key)) := by
  rw [get, h]
  rfl

theorem delete_accepted : store.delete ns key = .ok ⟨store.items.delete (· = (ns, key))⟩ := by
  rw [delete, h]
  rfl

theorem list_accepted :
    store.list ns = .ok ((store.items.select (·.1 = ns) toLex).map snd) := by
  rw [list, h]
  rfl

theorem search_accepted : store.search ns =
      .ok ((store.items.select (·.1.take ns.length = ns) toLex).map snd) := by
  rw [search, h]
  rfl

end MemoryRuntimeGraphStore

namespace FileRuntimeGraphStore

variable (sha256 : String → String) (store : FileRuntimeGraphStore V)

theorem answer_refused {call : GraphStoreCall V} {error : StoreError}
    (h : normalizeNamespace call.namespace = .error error) :
    store.answer sha256 call = (.error error, store) := by
  cases call <;>
    (simp only [GraphStoreCall.namespace] at h
     simp only [answer, put, get, delete, list, search, h]
     rfl)

variable (ns : Namespace) (h : normalizeNamespace ns = .ok ns) (key : String)
include h

theorem put_accepted (now : ℕ) (value : V) : store.put sha256 now ns key value =
      (requireKey key).map fun _ =>
        (putItem (store.files.find? (path sha256 ns key)) now ns key value,
          ⟨store.files.put (path sha256 ns key)
            (putItem (store.files.find? (path sha256 ns key)) now ns key value)⟩) := by
  rw [put, h]
  cases requireKey key <;> rfl

theorem get_accepted : store.get sha256 ns key = .ok (store.files.find? (path sha256 ns key)) := by
  rw [get, h]
  rfl

theorem delete_accepted :
    store.delete sha256 ns key = .ok ⟨store.files.delete (· = path sha256 ns key)⟩ := by
  rw [delete, h]
  rfl

theorem list_accepted : store.list sha256 ns =
      .ok ((store.files.select (·.1 = namespaceDir sha256 ns) snd).map snd) := by
  rw [list, h]
  rfl

theorem search_accepted : store.search ns =
      .ok (((store.files.select (fun _ => True) toLex).map snd).filter fun item =>
        item.namespace.take ns.length = ns) := by
  rw [search, h]
  rfl

end FileRuntimeGraphStore

namespace FileRuntimeGraphStore

variable {sha256 : String → String} {texts : Set String} {memory : MemoryRuntimeGraphStore V}
  {files : FileRuntimeGraphStore V}

/-- **One call** in memory and on files. -/
theorem Holds.answer (h : Holds sha256 texts memory files) (hdigest : Set.InjOn sha256 texts)
    (call : GraphStoreCall V) (hnul : ∀ part ∈ call.namespace, '\x00' ∉ part.toList)
    (hjoined : joinNul call.namespace ∈ texts) (hkeys : ∀ key ∈ call.keys, key ∈ texts) :
    FilesAgree sha256 memory call (memory.answer call).1 (files.answer sha256 call).1 ∧
      Holds sha256 texts (memory.answer call).2 (files.answer sha256 call).2 := by
  cases hnorm : normalizeNamespace call.namespace with
  | error error =>
    rw [memory.answer_refused hnorm, files.answer_refused sha256 hnorm]
    refine ⟨?_, h⟩
    cases call with
    | list ns => exact .inl ⟨error, rfl, rfl⟩
    | search ns => exact .inl ⟨error, rfl, rfl⟩
    | _ => rfl
  | ok normalized =>
    obtain ⟨rfl, hne, hparts⟩ := normalizeNamespace_eq_ok.1 hnorm
    have hnamed : Named texts call.namespace := ⟨hne, hnul, hjoined⟩
    cases call with
    | put ns key value now =>
      have hkey := hkeys key (mem_singleton.2 rfl)
      rw [MemoryRuntimeGraphStore.answer, FileRuntimeGraphStore.answer,
        memory.put_accepted ns hnorm, files.put_accepted sha256 ns hnorm, h.file ns key hnamed hkey]
      cases requireKey key with
      | error error => exact ⟨rfl, h⟩
      | ok _ => exact ⟨rfl, h.put hdigest hnamed hkey _ now value⟩
    | get ns key again =>
      have hkey := hkeys key (mem_singleton.2 rfl)
      rw [MemoryRuntimeGraphStore.answer, FileRuntimeGraphStore.answer,
        memory.get_accepted ns hnorm, files.get_accepted sha256 ns hnorm, h.file ns key hnamed hkey]
      exact ⟨rfl, h⟩
    | delete ns key =>
      have hkey := hkeys key (mem_singleton.2 rfl)
      rw [MemoryRuntimeGraphStore.answer, FileRuntimeGraphStore.answer,
        memory.delete_accepted ns hnorm, files.delete_accepted sha256 ns hnorm]
      exact ⟨rfl, h.delete hdigest hnamed hkey⟩
    | list ns =>
      rw [MemoryRuntimeGraphStore.answer, FileRuntimeGraphStore.answer,
        memory.list_accepted ns hnorm, files.list_accepted sha256 ns hnorm]
      exact ⟨.inr ⟨_, _, rfl, rfl, h.consistent.listing (· = ns), h.listing hdigest hnamed⟩, h⟩
    | search ns =>
      rw [MemoryRuntimeGraphStore.answer, FileRuntimeGraphStore.answer,
        memory.search_accepted ns hnorm, files.search_accepted ns hnorm]
      exact ⟨.inr ⟨_, _, rfl, rfl, h.consistent.listing (·.take ns.length = ns), h.searching ns⟩, h⟩

end FileRuntimeGraphStore

namespace TursoRuntimeGraphStore

variable {memory : MemoryRuntimeGraphStore V} {turso : TursoRuntimeGraphStore V}

/-- **One call** in memory and in Turso. -/
theorem Holds.answer (h : Holds memory turso) (call : GraphStoreCall V) (hvalid : call.Valid) :
    TursoAgree memory call (memory.answer call).1 (turso.answer call).1 ∧
      Holds (memory.answer call).2 (turso.answer call).2 := by
  obtain ⟨hne, hparts, hkeys⟩ := hvalid
  have hnorm : normalizeNamespace call.namespace = .ok call.namespace :=
    normalizeNamespace_eq_ok.2 ⟨rfl, hne, hparts⟩
  cases call with
  | put ns key value now =>
    have hkey : requireKey key = .ok () :=
      guardElse_eq_ok.2 (hkeys key (mem_singleton.2 rfl))
    rw [MemoryRuntimeGraphStore.answer, memory.put_accepted ns hnorm, hkey, ← h.row ns key]
    exact ⟨rfl, h.put now hne key value⟩
  | get ns key again =>
    rw [MemoryRuntimeGraphStore.answer, memory.get_accepted ns hnorm, ← h.row ns key]
    refine ⟨?_, h⟩
    rintro rfl
    rfl
  | delete ns key =>
    rw [MemoryRuntimeGraphStore.answer, memory.delete_accepted ns hnorm]
    exact ⟨rfl, h.delete ns key⟩
  | list ns =>
    rw [MemoryRuntimeGraphStore.answer, memory.list_accepted ns hnorm,
      ← (h.listing ns).eq (h.consistent.listing (· = ns))]
    exact ⟨rfl, h⟩
  | search ns =>
    have hlisted := h.consistent.listing (·.take ns.length = ns)
    have hfound := h.searching ns
    rw [MemoryRuntimeGraphStore.answer, memory.search_accepted ns hnorm]
    refine ⟨⟨_, _, rfl, rfl, hlisted, fun item hitem => ?_⟩, h⟩
    obtain ⟨hstored, hextends⟩ := (hlisted.mem item).1 hitem
    exact (hfound.mem item).2 ⟨hstored, matches_of_prefix hne hextends⟩

end TursoRuntimeGraphStore

def digested (calls : List (GraphStoreCall V)) : Set String :=
  {text | ∃ call ∈ calls, text = joinNul call.namespace ∨ text ∈ call.keys}

theorem FileRuntimeGraphStore.Holds.after {sha256 : String → String} {texts : Set String}
    (hdigest : Set.InjOn sha256 texts) (calls : List (GraphStoreCall V))
    (hnul : ∀ call ∈ calls, ∀ part ∈ call.namespace, '\x00' ∉ part.toList)
    (htexts : digested calls ⊆ texts) :
    FileRuntimeGraphStore.Holds sha256 texts (.after calls) (.after sha256 calls) := by
  induction calls using List.reverseRecOn with
  | nil =>
    exact ⟨fun _ hmem => absurd hmem not_mem_nil, fun _ hmem => absurd hmem not_mem_nil,
      fun _ _ _ _ => rfl, fun _ hmem => absurd hmem not_mem_nil⟩
  | append_singleton calls call ih =>
    have hcall : call ∈ calls ++ [call] := mem_append_right _ (mem_singleton.2 rfl)
    have hholds := ih (fun call' hmem => hnul call' (mem_append_left _ hmem))
      fun text ⟨call', hmem, htext⟩ => htexts ⟨call', mem_append_left _ hmem, htext⟩
    simp only [MemoryRuntimeGraphStore.after, FileRuntimeGraphStore.after, run_concat] at hholds ⊢
    exact (hholds.answer hdigest call (hnul call hcall) (htexts ⟨call, hcall, .inl rfl⟩)
      fun key hkey => htexts ⟨call, hcall, .inr hkey⟩).2

theorem TursoRuntimeGraphStore.Holds.after (calls : List (GraphStoreCall V))
    (hvalid : ∀ call ∈ calls, call.Valid) :
    TursoRuntimeGraphStore.Holds (.after calls) (.after calls) := by
  induction calls using List.reverseRecOn with
  | nil =>
    exact ⟨fun _ hmem => absurd hmem not_mem_nil, fun _ hmem => absurd hmem not_mem_nil,
      fun _ _ => rfl, fun _ hmem => absurd hmem not_mem_nil⟩
  | append_singleton calls call ih =>
    have hcall : call ∈ calls ++ [call] := mem_append_right _ (mem_singleton.2 rfl)
    have hholds := ih fun call' hmem => hvalid call' (mem_append_left _ hmem)
    simp only [MemoryRuntimeGraphStore.after, TursoRuntimeGraphStore.after, run_concat] at hholds ⊢
    exact (hholds.answer call (hvalid call hcall)).2

/-- **The stores after any calls.** On files they agree with those in memory when
the digests tell apart the texts they are made of, and no part of a namespace has
the character that joins the parts; in Turso they do when nothing is refused. -/
theorem stores_agree (sha256 : String → String) (calls : List (GraphStoreCall V))
    (call : GraphStoreCall V) : (Set.InjOn sha256 (digested (calls ++ [call])) →
      (∀ call' ∈ calls ++ [call], ∀ part ∈ call'.namespace, '\x00' ∉ part.toList) →
      FilesAgree sha256 (.after calls) call
        ((MemoryRuntimeGraphStore.after calls).answer call).1
        ((FileRuntimeGraphStore.after sha256 calls).answer sha256 call).1) ∧
    ((∀ call' ∈ calls ++ [call], call'.Valid) →
      TursoAgree (.after calls) call
        ((MemoryRuntimeGraphStore.after calls).answer call).1
        ((TursoRuntimeGraphStore.after calls).answer call).1) := by
  have hcall : call ∈ calls ++ [call] := mem_append_right _ (mem_singleton.2 rfl)
  constructor
  · intro hdigest hnul
    have hholds := FileRuntimeGraphStore.Holds.after hdigest calls
      (fun call' hmem => hnul call' (mem_append_left _ hmem))
      fun text ⟨call', hmem, htext⟩ => ⟨call', mem_append_left _ hmem, htext⟩
    exact (hholds.answer hdigest call (hnul call hcall) ⟨call, hcall, .inl rfl⟩
      fun key hkey => ⟨call, hcall, .inr hkey⟩).1
  · intro hvalid
    have hholds := TursoRuntimeGraphStore.Holds.after calls
      fun call' hmem => hvalid call' (mem_append_left _ hmem)
    exact (hholds.answer call (hvalid call hcall)).1

def digestOf (text : String) : String :=
  (List.lookup text
    [("n", "1b16b1df538ba12dc3f97edbb85caa7050d46c148134290feba80f8236c83db9"),
    ("a", "ca978112ca1bbdcafac231b39a23dc4da786eff8147c4e72b9807785afee48bb"),
    ("b", "3e23e8160039594a33894f6564e1b1348bbd7a0088d42c4acb73eeaed59c009d"),
    ("a_c", "68421187e198542c0d8dfb2bd4c2cf3637aa16857150c7d5483fa1fcff9ffefe"),
    ("abc\x00x", "c0f25b467b7394ad21f93e84ae39481c86380d5d62978809d1b95ff2a59effe1"),
    ("n\x00n", "7b467a5f42c711f73ef0af901db3da6297ddd41beab4c392f67d16c4ac94918b")]).getD ""

def putOnce (ns : Namespace) (key : String) (value now : ℕ) : RuntimeGraphStoreItem ℕ :=
  ⟨ns, key, value, now, now⟩

theorem stores_agree_once : FilesAgree digestOf (.after [.put ["n"] "a" 1 7]) (.list ["n"])
      ((MemoryRuntimeGraphStore.after [.put ["n"] "a" 1 7]).answer (.list ["n"])).1
      ((FileRuntimeGraphStore.after digestOf [.put ["n"] "a" 1 7]).answer digestOf
        (.list ["n"])).1 ∧
    TursoAgree (.after [.put ["n"] "a" 1 7]) (.list ["n"])
      ((MemoryRuntimeGraphStore.after [.put ["n"] "a" 1 7]).answer (.list ["n"])).1
      ((TursoRuntimeGraphStore.after [.put ["n"] "a" 1 7]).answer (.list ["n"])).1 := by
  have hagree := stores_agree digestOf [.put ["n"] "a" 1 7] (.list ["n"])
  refine ⟨hagree.1 ?_ (by decide), hagree.2 ?_⟩
  · have htexts : ∀ text ∈ digested ([.put ["n"] "a" 1 7] ++ [.list ["n"]]),
        text = "n" ∨ text = "a" := by
      rintro text ⟨call, hcall, htext⟩
      simp only [singleton_append, mem_cons, not_mem_nil, or_false] at hcall
      rcases hcall with rfl | rfl
      · simpa [GraphStoreCall.namespace, GraphStoreCall.keys, joinNul] using htext
      · simpa [GraphStoreCall.namespace, GraphStoreCall.keys, joinNul] using Or.inl htext
    intro text htext text' htext' heq
    rcases htexts text htext with rfl | rfl <;> rcases htexts text' htext' with rfl | rfl
    · rfl
    · exact absurd heq (by decide)
    · exact absurd heq (by decide)
    · rfl
  · simp [GraphStoreCall.Valid, GraphStoreCall.namespace, GraphStoreCall.newKeys]

def storeRepliesAfter (calls : List (GraphStoreCall ℕ)) (call : GraphStoreCall ℕ) :
    List (Except StoreError (GraphStoreReply ℕ)) :=
  [((MemoryRuntimeGraphStore.after calls).answer call).1,
    ((FileRuntimeGraphStore.after digestOf calls).answer digestOf call).1,
    ((TursoRuntimeGraphStore.after calls).answer call).1]

/-- **Where the stores differ**: the order on files, namespaces that collide there,
a wildcard in Turso, a namespace that only Turso accepts, and one that its iterable gives once. -/
theorem stores_differ : storeRepliesAfter [.put ["n"] "a" 1 7, .put ["n"] "b" 2 8] (.list ["n"]) =
      [.ok (.items [putOnce ["n"] "a" 1 7, putOnce ["n"] "b" 2 8]),
        .ok (.items [putOnce ["n"] "b" 2 8, putOnce ["n"] "a" 1 7]),
        .ok (.items [putOnce ["n"] "a" 1 7, putOnce ["n"] "b" 2 8])] ∧
    storeRepliesAfter [.put ["n", "n"] "a" 1 7] (.get ["n\x00n"] "a") =
      [.ok (.item none), .ok (.item (putOnce ["n", "n"] "a" 1 7)), .ok (.item none)] ∧
    storeRepliesAfter [.put ["a_c"] "a" 1 7, .put ["abc", "x"] "a" 2 8] (.search ["a_c"]) =
      [.ok (.items [putOnce ["a_c"] "a" 1 7]), .ok (.items [putOnce ["a_c"] "a" 1 7]),
        .ok (.items [putOnce ["a_c"] "a" 1 7, putOnce ["abc", "x"] "a" 2 8])] ∧
    storeRepliesAfter [] (.get [] "a") =
      [.error (.runtimeGraphStore "runtime graph store namespace must not be empty"),
        .error (.runtimeGraphStore "runtime graph store namespace must not be empty"),
        .ok (.item none)] ∧
    storeRepliesAfter [.put ["n"] "a" 1 7] (.get ["n"] "a" []) =
      [.ok (.item (putOnce ["n"] "a" 1 7)), .ok (.item (putOnce ["n"] "a" 1 7)),
        .ok (.item (putOnce [] "a" 1 7))] := by
  decide +kernel

end PooFlow

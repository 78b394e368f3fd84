import Mathlib.Data.List.Infix
import PooFlow.Durable.Stores

namespace PooFlow

open Foundation List Keyed
open Prod (mk.injEq snd)

variable {V : Type}

theorem normalizeNamespace_eq_ok {ns ns' : Namespace} :
    normalizeNamespace ns = .ok ns' ↔ ns = ns' ∧ ns ≠ [] ∧ ∀ part ∈ ns, part ≠ "" := by
  simp only [normalizeNamespace, bind_eq_ok, guardElse_eq_ok]
  constructor
  · rintro ⟨_, hne, _, hparts, hpure⟩
    exact ⟨Except.ok.inj hpure, hne, hparts⟩
  · rintro ⟨rfl, hne, hparts⟩
    exact ⟨⟨⟩, hne, ⟨⟩, hparts, rfl⟩

theorem map_toList_injective : Function.Injective (List.map String.toList) :=
  map_injective_iff.2 fun _ _ h => String.toList_inj.1 h

/-- Joined parts without `NUL` tell their namespaces apart. -/
theorem joinNul_inj {ns ns' : Namespace} (hne : ns ≠ []) (hne' : ns' ≠ [])
    (hnul : ∀ part ∈ ns, '\x00' ∉ part.toList) (hnul' : ∀ part ∈ ns', '\x00' ∉ part.toList)
    (h : joinNul ns = joinNul ns') : ns = ns' := by
  have hjoined := congrArg (fun text => text.toList.splitOn '\x00') h
  simp only [joinNul, String.toList_ofList] at hjoined
  rw [splitOn_intercalate, splitOn_intercalate] at hjoined
  · exact map_toList_injective hjoined
  · simpa using hnul'
  · simpa using hne'
  · simpa using hnul
  · simpa using hne

@[simp] theorem decode_encode (ns : Namespace) : decode (encode ns) = ns := by
  rw [decode, encode, String.toList_ofList, Json.loads_dumps]
  simp [Function.comp_def]

theorem encode_injective : Function.Injective encode := fun ns ns' h => by
  rw [← decode_encode ns, h, decode_encode]

theorem encode_key_inj {ns ns' : Namespace} {key key' : String} :
    (encode ns, key) = (encode ns', key') ↔ (ns, key) = (ns', key') := by
  rw [Prod.mk.injEq, Prod.mk.injEq, encode_injective.eq_iff]

theorem like_append (front : List Char) {pattern text : List Char} (h : like pattern text = true) :
    like (front ++ pattern) (front ++ text) = true := by
  induction front with
  | nil => exact h
  | cons c front ih =>
    rw [cons_append, cons_append]
    unfold like
    split
    · next heq => cases heq
    · next heq =>
      injection heq with hhead htail
      subst hhead htail
      -- a wildcard in front stands for itself
      exact any_eq_true.2 ⟨_, (mem_tails _ _).2 (suffix_cons _ _), ih⟩
    · next heq =>
      injection heq with _ htail
      subst htail
      exact ih
    · next heq =>
      injection heq with hhead htail
      subst hhead htail
      simpa using ih

/-- The `LIKE` pattern of a prefix finds every namespace that begins with it. -/
theorem matches_of_prefix {ns namespacePrefix : Namespace} (hne : namespacePrefix ≠ [])
    (h : ns.take namespacePrefix.length = namespacePrefix) :
    Matches namespacePrefix (encode ns) := by
  obtain ⟨more, rfl⟩ : ∃ more, namespacePrefix ++ more = ns := prefix_iff_eq_take.2 h.symm
  cases more with
  | nil => exact .inl (by rw [append_nil])
  | cons next more =>
    obtain ⟨rest, hrest⟩ := Json.dumps_append (namespacePrefix.map String.toList)
      ((next :: more).map String.toList) (by simpa using hne) (by simp)
    refine .inr ?_
    rw [searchPattern, encode, encode, String.toList_ofList, String.toList_ofList, map_append,
      hrest]
    refine like_append _ ?_
    simp [like]

namespace MemoryRuntimeGraphStore

/-- An item is stored under its own namespace and key. -/
def Consistent (store : MemoryRuntimeGraphStore V) : Prop :=
  ∀ row ∈ store.items.rows, row.1 = (row.2.namespace, row.2.key)

/-- The items that the memory store holds. -/
def Stored (store : MemoryRuntimeGraphStore V) (item : RuntimeGraphStoreItem V) : Prop :=
  store.items.find? (item.namespace, item.key) = some item

variable {store : MemoryRuntimeGraphStore V}

theorem Consistent.put (h : store.Consistent)
    (previous : Option (RuntimeGraphStoreItem V)) (now : ℕ) (ns : Namespace) (key : String)
    (value : V) : Consistent ⟨store.items.put (ns, key) (putItem previous now ns key value)⟩ := by
  intro row hrow
  rcases mem_put.1 hrow with hbefore | rfl
  · exact h row hbefore.1
  · rfl

theorem Consistent.delete (h : store.Consistent) (ns : Namespace) (key : String) :
    Consistent ⟨store.items.delete (· = (ns, key))⟩ :=
  fun row hrow => h row (mem_delete.1 hrow).1

end MemoryRuntimeGraphStore

/-- **A listing** of the stored items with a property, in the order of a rank. -/
structure Listing {ι : Type} [LinearOrder ι] (store : MemoryRuntimeGraphStore V)
    (p : RuntimeGraphStoreItem V → Prop) (rank : Namespace → String → ι)
    (items : List (RuntimeGraphStoreItem V)) : Prop where
  ascending : items.Pairwise fun item item' =>
    rank item.namespace item.key < rank item'.namespace item'.key
  mem : ∀ item, item ∈ items ↔ store.Stored item ∧ p item

/-- Selected rows, in their order, are a listing of their items. -/
theorem listing_of_select {κ β ι : Type} [DecidableEq κ] [LinearOrder ι]
    {table : Keyed κ β} {selected : κ → Prop}
    [DecidablePred selected] {order : κ → ι} {item : κ × β → RuntimeGraphStoreItem V}
    {p : RuntimeGraphStoreItem V → Prop} {rank : Namespace → String → ι}
    (horder : ∀ key key', selected key → selected key' → order key = order key' → key = key')
    (hrank : ∀ row ∈ table.rows, selected row.1 →
      rank (item row).namespace (item row).key = order row.1)
    (hrow : ∀ row ∈ table.rows, store.Stored (item row))
    (hstored : ∀ stored, store.Stored stored → ∃ row ∈ table.rows, item row = stored)
    (hselected : ∀ row ∈ table.rows, selected row.1 ↔ p (item row)) :
    Listing store p rank ((table.select selected order).map item) := by
  constructor
  · refine pairwise_map.2 (List.Pairwise.imp_of_mem ?_ (pairwise_select horder))
    intro row row' hmem hmem' hlt
    obtain ⟨hmem, hsel⟩ := mem_select.1 hmem
    obtain ⟨hmem', hsel'⟩ := mem_select.1 hmem'
    rwa [hrank row hmem hsel, hrank row' hmem' hsel']
  · intro listed
    rw [mem_map]
    constructor
    · rintro ⟨row, hmem, rfl⟩
      obtain ⟨hmem, hsel⟩ := mem_select.1 hmem
      exact ⟨hrow row hmem, (hselected row hmem).1 hsel⟩
    · rintro ⟨hstoredItem, hp⟩
      obtain ⟨row, hmem, rfl⟩ := hstored listed hstoredItem
      exact ⟨row, mem_select.2 ⟨hmem, (hselected row hmem).2 hp⟩, rfl⟩

namespace Listing

variable {ι ι' : Type} [LinearOrder ι] [LinearOrder ι'] {store : MemoryRuntimeGraphStore V}
  {p : RuntimeGraphStoreItem V → Prop} {rank : Namespace → String → ι}
  {rank' : Namespace → String → ι'} {items items' : List (RuntimeGraphStoreItem V)}

section

variable (h : Listing store p rank items)

include h

theorem eq (h' : Listing store p rank items') : items = items' :=
  eq_of_sorted (fun item : RuntimeGraphStoreItem V => rank item.namespace item.key)
    h.ascending h'.ascending fun item => (h.mem item).trans (h'.mem item).symm

theorem reorder (hrank : ∀ item item', p item → p item' →
      rank item.namespace item.key < rank item'.namespace item'.key →
        rank' item.namespace item.key < rank' item'.namespace item'.key) :
    Listing store p rank' items :=
  ⟨h.ascending.imp_of_mem fun hitem hitem' hlt =>
    hrank _ _ ((h.mem _).1 hitem).2 ((h.mem _).1 hitem').2 hlt, h.mem⟩

variable {q : RuntimeGraphStoreItem V → Prop}

theorem filter [DecidablePred q] :
    Listing store (fun item => p item ∧ q item) rank (items.filter fun item => q item) :=
  ⟨h.ascending.filter _, fun item => by
    rw [mem_filter, h.mem, decide_eq_true_eq, and_assoc]⟩

theorem congr (hpq : ∀ item, p item ↔ q item) : Listing store q rank items :=
  ⟨h.ascending, fun item => (h.mem item).trans (and_congr_right fun _ => hpq item)⟩

end

end Listing

def byKey (ns : Namespace) (key : String) : Namespace ×ₗ String := toLex (ns, key)

namespace MemoryRuntimeGraphStore

variable {store : MemoryRuntimeGraphStore V}

theorem Consistent.listing (h : store.Consistent) (p : Namespace → Prop) [DecidablePred p] :
    Listing store (fun item => p item.namespace) byKey
      ((store.items.select (fun key => p key.1) toLex).map snd) := by
  apply listing_of_select
  · exact fun _ _ _ _ heq => heq
  · intro row hrow _
    rw [h row hrow]
    rfl
  · intro row hrow
    rw [Stored, ← h row hrow]
    exact find?_eq_some.2 hrow
  · exact fun stored hstored => ⟨_, find?_eq_some.1 hstored, rfl⟩
  · intro row hrow
    rw [h row hrow]

end MemoryRuntimeGraphStore

namespace FileRuntimeGraphStore

/-- A namespace that can be told from others by its digest. -/
structure Named (texts : Set String) (ns : Namespace) : Prop where
  nonempty : ns ≠ []
  noNul : ∀ part ∈ ns, '\x00' ∉ part.toList
  joined : joinNul ns ∈ texts

variable {sha256 : String → String} {texts : Set String}

section

variable (hdigest : Set.InjOn sha256 texts) {ns ns' : Namespace} (hns : Named texts ns)
  (hns' : Named texts ns')

include hdigest ns ns' hns hns'

theorem namespaceDir_inj : namespaceDir sha256 ns = namespaceDir sha256 ns' ↔ ns = ns' := by
  constructor
  · intro heq
    exact joinNul_inj hns.nonempty hns'.nonempty hns.noNul hns'.noNul
      (hdigest hns.joined hns'.joined heq)
  · rintro rfl
    rfl

theorem path_inj {key key' : String} (hkey : key ∈ texts) (hkey' : key' ∈ texts) :
    path sha256 ns key = path sha256 ns' key' ↔ (ns, key) = (ns', key') := by
  rw [path, path, Prod.mk.injEq, Prod.mk.injEq, namespaceDir_inj hdigest hns hns',
    String.append_left_inj, hdigest.eq_iff hkey hkey']

end

/-- **The files hold what memory holds**, each item in the file of its namespace and key. -/
structure Holds (sha256 : String → String) (texts : Set String)
    (memory : MemoryRuntimeGraphStore V) (files : FileRuntimeGraphStore V) : Prop where
  consistent : memory.Consistent
  named : ∀ row ∈ memory.items.rows, Named texts row.1.1 ∧ row.1.2 ∈ texts
  file : ∀ ns key, Named texts ns → key ∈ texts →
    files.files.find? (path sha256 ns key) = memory.items.find? (ns, key)
  filed : ∀ row ∈ files.files.rows, ∃ ns key, Named texts ns ∧ key ∈ texts ∧
    row.1 = path sha256 ns key

variable {memory : MemoryRuntimeGraphStore V} {files : FileRuntimeGraphStore V}

section

variable (h : Holds sha256 texts memory files)

include h

theorem Holds.stored {row} (hrow : row ∈ files.files.rows) :
    memory.Stored row.2 ∧ Named texts row.2.namespace ∧
      row.1 = path sha256 row.2.namespace row.2.key := by
  obtain ⟨ns, key, hns, hkey, hpath⟩ := h.filed row hrow
  have hfound : files.files.find? row.1 = some row.2 := find?_eq_some.2 hrow
  rw [hpath, h.file ns key hns hkey] at hfound
  have hitem := h.consistent _ (find?_eq_some.1 hfound)
  dsimp only at hitem
  obtain ⟨rfl, rfl⟩ := hitem
  exact ⟨hfound, hns, hpath⟩

variable {item : RuntimeGraphStoreItem V}

theorem Holds.exists_file (hstored : memory.Stored item) :
    ∃ row ∈ files.files.rows, row.2 = item := by
  obtain ⟨hns, hkey⟩ := h.named _ (find?_eq_some.1 hstored)
  rw [MemoryRuntimeGraphStore.Stored, ← h.file _ _ hns hkey] at hstored
  exact ⟨_, find?_eq_some.1 hstored, rfl⟩

theorem Holds.listing (hdigest : Set.InjOn sha256 texts) {ns : Namespace} (hns : Named texts ns) :
    Listing memory (·.namespace = ns) (fun _ key => sha256 key ++ ".store.pickle")
      ((files.files.select (·.1 = namespaceDir sha256 ns) snd).map snd) := by
  apply listing_of_select
  · exact fun key key' hkey hkey' heq => Prod.ext (hkey.trans hkey'.symm) heq
  · intro row hrow _
    rw [(h.stored hrow).2.2, path]
  · exact fun row hrow => (h.stored hrow).1
  · exact fun stored hstored => h.exists_file hstored
  · intro row hrow
    obtain ⟨_, hnamed, hpath⟩ := h.stored hrow
    rw [hpath]
    exact namespaceDir_inj hdigest hnamed hns

theorem Holds.searching (ns : Namespace) : Listing memory (·.namespace.take ns.length = ns)
      (fun ns key => toLex (path sha256 ns key))
      (((files.files.select (fun _ => True) toLex).map snd).filter fun item =>
        item.namespace.take ns.length = ns) := by
  have hall : Listing memory (fun _ => True) (fun ns key => toLex (path sha256 ns key))
      ((files.files.select (fun _ => True) toLex).map snd) := by
    apply listing_of_select
    · exact fun _ _ _ _ heq => heq
    · intro row hrow _
      rw [(h.stored hrow).2.2]
    · exact fun row hrow => (h.stored hrow).1
    · exact fun stored hstored => h.exists_file hstored
    · exact fun _ _ => Iff.rfl
  exact hall.filter.congr fun _ => Iff.of_eq (true_and _)

end

section

variable (h : Holds sha256 texts memory files) (hdigest : Set.InjOn sha256 texts) {ns : Namespace}
  (hns : Named texts ns) {key : String} (hkey : key ∈ texts)

include h hdigest ns hns key hkey

theorem Holds.put (previous : Option (RuntimeGraphStoreItem V)) (now : ℕ) (value : V) :
    Holds sha256 texts ⟨memory.items.put (ns, key) (putItem previous now ns key value)⟩
      ⟨files.files.put (path sha256 ns key) (putItem previous now ns key value)⟩ := by
  refine ⟨h.consistent.put previous now ns key value, ?_, ?_, ?_⟩
  · intro row hrow
    rcases mem_put.1 hrow with hbefore | rfl
    · exact h.named row hbefore.1
    · exact ⟨hns, hkey⟩
  · intro ns' key' hns' hkey'
    rw [find?_put, find?_put, h.file ns' key' hns' hkey']
    simp only [path_inj hdigest hns' hns hkey' hkey]
  · intro row hrow
    rcases mem_put.1 hrow with hbefore | rfl
    · exact h.filed row hbefore.1
    · exact ⟨ns, key, hns, hkey, rfl⟩

theorem Holds.delete : Holds sha256 texts ⟨memory.items.delete (· = (ns, key))⟩
      ⟨files.files.delete (· = path sha256 ns key)⟩ := by
  refine ⟨h.consistent.delete ns key, ?_, ?_, ?_⟩
  · exact fun row hrow => h.named row (mem_delete.1 hrow).1
  · intro ns' key' hns' hkey'
    rw [find?_delete, find?_delete, h.file ns' key' hns' hkey']
    simp only [path_inj hdigest hns' hns hkey' hkey]
  · exact fun row hrow => h.filed row (mem_delete.1 hrow).1

end

end FileRuntimeGraphStore

namespace TursoRuntimeGraphStore

/-- **The rows hold what memory holds**, under encoded namespaces. -/
structure Holds (memory : MemoryRuntimeGraphStore V) (turso : TursoRuntimeGraphStore V) :
    Prop where
  consistent : memory.Consistent
  nonempty : ∀ row ∈ memory.items.rows, row.1.1 ≠ []
  row : ∀ ns key, turso.get ns key = memory.items.find? (ns, key)
  encoded : ∀ row ∈ turso.rows.rows, ∃ ns, row.1.1 = encode ns

variable {memory : MemoryRuntimeGraphStore V} {turso : TursoRuntimeGraphStore V}

section

variable (h : Holds memory turso)

include h

theorem Holds.stored {row} (hrow : row ∈ turso.rows.rows) :
    memory.Stored (rowItem row) ∧ row.1.1 = encode (rowItem row).namespace := by
  obtain ⟨ns, hns⟩ := h.encoded row hrow
  have hdecoded : (rowItem row).namespace = ns := by
    show decode row.1.1 = ns
    rw [hns, decode_encode]
  have hfound : turso.rows.find? (encode ns, row.1.2) = some row.2 := by
    rw [← hns]
    exact find?_eq_some.2 hrow
  refine ⟨?_, by rw [hdecoded]; exact hns⟩
  rw [MemoryRuntimeGraphStore.Stored, ← h.row, get, hdecoded]
  show (turso.rows.find? (encode ns, row.1.2)).map _ = _
  rw [hfound, Option.map_some]
  congr 1
  rw [← hdecoded]
  rfl

theorem Holds.exists_row (hstored : memory.Stored item) :
    ∃ row ∈ turso.rows.rows, rowItem row = item := by
  rw [MemoryRuntimeGraphStore.Stored, ← h.row, get] at hstored
  obtain ⟨value, hvalue, hitem⟩ := Option.map_eq_some_iff.1 hstored
  refine ⟨_, find?_eq_some.1 hvalue, ?_⟩
  rw [rowItem, decode_encode]
  exact hitem

theorem Holds.listing (ns : Namespace) :
    Listing memory (·.namespace = ns) byKey (turso.list ns) := by
  have hlisting : Listing memory (·.namespace = ns) (fun _ key => key) (turso.list ns) := by
    apply listing_of_select
    · exact fun key key' hkey hkey' heq => Prod.ext (hkey.trans hkey'.symm) heq
    · exact fun _ _ _ => rfl
    · exact fun row hrow => (h.stored hrow).1
    · exact fun stored hstored => h.exists_row hstored
    · intro row hrow
      rw [(h.stored hrow).2]
      exact encode_injective.eq_iff
  refine hlisting.reorder fun item item' hitem hitem' hlt => ?_
  rw [byKey, byKey, hitem, hitem']
  exact Prod.Lex.toLex_lt_toLex.2 (.inr ⟨rfl, hlt⟩)

theorem Holds.searching (ns : Namespace) :
    Listing memory (fun item => Matches ns (encode item.namespace))
      (fun ns key => toLex (encode ns, key)) (turso.search ns) := by
  apply listing_of_select
  · exact fun _ _ _ _ heq => heq
  · intro row hrow _
    rw [← (h.stored hrow).2]
    rfl
  · exact fun row hrow => (h.stored hrow).1
  · exact fun stored hstored => h.exists_row hstored
  · intro row hrow
    rw [← (h.stored hrow).2]

theorem Holds.put (now : ℕ) {ns : Namespace} (hne : ns ≠ []) (key : String) (value : V) :
    Holds ⟨memory.items.put (ns, key) (putItem (turso.get ns key) now ns key value)⟩
      (turso.put now ns key value).2 := by
  refine ⟨h.consistent.put _ now ns key value, ?_, ?_, ?_⟩
  · intro row hrow
    rcases mem_put.1 hrow with hbefore | rfl
    · exact h.nonempty row hbefore.1
    · exact hne
  · intro ns' key'
    rw [find?_put, ← h.row, get, TursoRuntimeGraphStore.put, find?_put]
    simp only [encode_key_inj]
    split
    · next hsame =>
      obtain ⟨rfl, rfl⟩ := Prod.mk.inj hsame
      rfl
    · rfl
  · intro row hrow
    rcases mem_put.1 hrow with hbefore | rfl
    · exact h.encoded row hbefore.1
    · exact ⟨ns, rfl⟩

theorem Holds.delete (ns : Namespace) (key : String) :
    Holds ⟨memory.items.delete (· = (ns, key))⟩ (turso.delete ns key) := by
  refine ⟨h.consistent.delete ns key, ?_, ?_, ?_⟩
  · exact fun row hrow => h.nonempty row (mem_delete.1 hrow).1
  · intro ns' key'
    rw [find?_delete, ← h.row, get, TursoRuntimeGraphStore.delete, find?_delete]
    simp only [encode_key_inj]
    split <;> rfl
  · exact fun row hrow => h.encoded row (mem_delete.1 hrow).1

end

end TursoRuntimeGraphStore

end PooFlow

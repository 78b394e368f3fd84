import Mathlib.Data.String.Basic
import PooFlow.Foundation.Guard
import PooFlow.Foundation.Json
import PooFlow.Foundation.Keyed
import PooFlow.Foundation.Run

/-! The stores of `stores.py` and `durable.py`: a dict in memory, a file for each item in a
directory for each namespace, a row for each item in Turso. What is pickled is read back as it was.
-/

namespace PooFlow

open Foundation

abbrev Namespace := List String

structure RuntimeGraphStoreItem (V : Type) where
  «namespace» : Namespace
  key : String
  value : V
  createdAt : ℕ
  updatedAt : ℕ
  deriving DecidableEq

inductive StoreError where
  | runtimeGraphStore (message : String)
  deriving DecidableEq

def normalizeNamespace (ns : Namespace) : Except StoreError Namespace := do
  guardElse (ns ≠ []) (.runtimeGraphStore "runtime graph store namespace must not be empty")
  guardElse (∀ part ∈ ns, part ≠ "")
    (.runtimeGraphStore "runtime graph store namespace parts must be non-empty")
  pure ns

/-- The check of a key in `put`. -/
def requireKey (key : String) : Except StoreError Unit :=
  guardElse (key ≠ "") (.runtimeGraphStore "runtime graph store key must not be empty")

variable {V : Type}

/-- The item that `put` makes, which keeps the time at which the last one was created. -/
def putItem (previous : Option (RuntimeGraphStoreItem V)) (now : ℕ) (ns : Namespace) (key : String)
    (value : V) : RuntimeGraphStoreItem V where
  «namespace» := ns
  key
  value
  createdAt := match previous with
    | some previous => previous.createdAt
    | none => now
  updatedAt := now

structure MemoryRuntimeGraphStore (V : Type) where
  items : Keyed (Namespace × String) (RuntimeGraphStoreItem V) := .empty

namespace MemoryRuntimeGraphStore

variable (store : MemoryRuntimeGraphStore V)

def put (now : ℕ) (ns : Namespace) (key : String) (value : V) :
    Except StoreError (RuntimeGraphStoreItem V × MemoryRuntimeGraphStore V) := do
  let ns ← normalizeNamespace ns
  requireKey key
  let item := putItem (store.items.find? (ns, key)) now ns key value
  pure (item, { items := store.items.put (ns, key) item })

def get (ns : Namespace) (key : String) : Except StoreError (Option (RuntimeGraphStoreItem V)) := do
  let ns ← normalizeNamespace ns
  pure (store.items.find? (ns, key))

def delete (ns : Namespace) (key : String) : Except StoreError (MemoryRuntimeGraphStore V) := do
  let ns ← normalizeNamespace ns
  pure { items := store.items.delete (· = (ns, key)) }

/-- `list`: the items of a namespace, out of all items sorted. -/
def list (ns : Namespace) : Except StoreError (List (RuntimeGraphStoreItem V)) := do
  let ns ← normalizeNamespace ns
  pure ((store.items.select (·.1 = ns) toLex).map Prod.snd)

def search (namespacePrefix : Namespace) : Except StoreError (List (RuntimeGraphStoreItem V)) := do
  let ns ← normalizeNamespace namespacePrefix
  pure ((store.items.select (·.1.take ns.length = ns) toLex).map Prod.snd)

end MemoryRuntimeGraphStore

structure FileRuntimeGraphStore (V : Type) where
  files : Keyed (String × String) (RuntimeGraphStoreItem V) := .empty

/-- `"\0".join`. -/
def joinNul (ns : Namespace) : String :=
  String.ofList (['\x00'].intercalate (ns.map String.toList))

namespace FileRuntimeGraphStore

-- the hex digest of `hashlib.sha256`
variable (sha256 : String → String)

def namespaceDir (ns : Namespace) : String := sha256 (joinNul ns)

def path (ns : Namespace) (key : String) : String × String :=
  (namespaceDir sha256 ns, sha256 key ++ ".store.pickle")

variable (store : FileRuntimeGraphStore V)

def put (now : ℕ) (ns : Namespace) (key : String) (value : V) :
    Except StoreError (RuntimeGraphStoreItem V × FileRuntimeGraphStore V) := do
  let ns ← normalizeNamespace ns
  requireKey key
  let item := putItem (store.files.find? (path sha256 ns key)) now ns key value
  pure (item, { files := store.files.put (path sha256 ns key) item })

def get (ns : Namespace) (key : String) : Except StoreError (Option (RuntimeGraphStoreItem V)) := do
  let ns ← normalizeNamespace ns
  pure (store.files.find? (path sha256 ns key))

def delete (ns : Namespace) (key : String) : Except StoreError (FileRuntimeGraphStore V) := do
  let ns ← normalizeNamespace ns
  pure { files := store.files.delete (· = path sha256 ns key) }

/-- `list`: the files of a directory, by name. -/
def list (ns : Namespace) : Except StoreError (List (RuntimeGraphStoreItem V)) := do
  let ns ← normalizeNamespace ns
  pure ((store.files.select (·.1 = namespaceDir sha256 ns) Prod.snd).map Prod.snd)

/-- `search`: all files, by path. -/
def search (namespacePrefix : Namespace) : Except StoreError (List (RuntimeGraphStoreItem V)) := do
  let ns ← normalizeNamespace namespacePrefix
  pure (((store.files.select (fun _ => True) toLex).map Prod.snd).filter fun item =>
    item.namespace.take ns.length = ns)

end FileRuntimeGraphStore

/-- `like` of SQL: `%` stands for any text, `_` for any character, and letters
of ASCII match in either case. -/
def like : List Char → List Char → Bool
  | [], text => text.isEmpty
  | '%' :: pattern, text => text.tails.any fun rest => like pattern rest
  | '_' :: pattern, text => match text with
    | [] => false
    | _ :: rest => like pattern rest
  | c :: pattern, text => match text with
    | [] => false
    | d :: rest => c.toLower = d.toLower && like pattern rest

def encode (ns : Namespace) : String := String.ofList (Json.dumps (ns.map String.toList))

def decode (text : String) : Namespace :=
  ((Json.loads text.toList).getD []).map String.ofList

structure TursoRuntimeGraphStore (V : Type) where
  rows : Keyed (String × String) (V × ℕ × ℕ) := .empty

def rowItem (row : (String × String) × (V × ℕ × ℕ)) : RuntimeGraphStoreItem V :=
  ⟨decode row.1.1, row.1.2, row.2.1, row.2.2.1, row.2.2.2⟩

/-- The pattern of `search`: `prefix[:-1] + ',%'`. -/
def searchPattern (encoded : String) : List Char := encoded.toList.dropLast ++ [',', '%']

/-- `namespace = ? or namespace like ?`. -/
def Matches (namespacePrefix : Namespace) (encoded : String) : Prop :=
  encoded = encode namespacePrefix ∨
    like (searchPattern (encode namespacePrefix)) encoded.toList = true

instance (namespacePrefix : Namespace) : DecidablePred (Matches namespacePrefix) := fun encoded =>
  inferInstanceAs (Decidable (encoded = encode namespacePrefix ∨
    like (searchPattern (encode namespacePrefix)) encoded.toList = true))

namespace TursoRuntimeGraphStore

variable (store : TursoRuntimeGraphStore V)

/-- `get` goes through the namespace twice; `again` is what it gives the second time. -/
def get (ns : Namespace) (key : String) (again : Namespace := ns) :
    Option (RuntimeGraphStoreItem V) :=
  (store.rows.find? (encode ns, key)).map fun row => ⟨again, key, row.1, row.2.1, row.2.2⟩

def put (now : ℕ) (ns : Namespace) (key : String) (value : V) :
    RuntimeGraphStoreItem V × TursoRuntimeGraphStore V :=
  let item := putItem (store.get ns key) now ns key value
  (item, { rows := store.rows.put (encode ns, key) (value, item.createdAt, now) })

def delete (ns : Namespace) (key : String) : TursoRuntimeGraphStore V where
  rows := store.rows.delete (· = (encode ns, key))

/-- `list`: `order by key`. -/
def list (ns : Namespace) : List (RuntimeGraphStoreItem V) :=
  (store.rows.select (·.1 = encode ns) Prod.snd).map rowItem

/-- `search`: `order by namespace, key`. -/
def search (namespacePrefix : Namespace) : List (RuntimeGraphStoreItem V) :=
  (store.rows.select (fun row => Matches namespacePrefix row.1) toLex).map rowItem

end TursoRuntimeGraphStore

/-- A call, with the time of a `put`. A namespace is what its iterable gives, which for `get` may
be something else the second time. -/
inductive GraphStoreCall (V : Type) where
  | put (ns : Namespace) (key : String) (value : V) (now : ℕ)
  | get (ns : Namespace) (key : String) (again : Namespace := ns)
  | delete (ns : Namespace) (key : String)
  | list (ns : Namespace)
  | search (namespacePrefix : Namespace)

inductive GraphStoreReply (V : Type) where
  | item (item : Option (RuntimeGraphStoreItem V))
  | items (items : List (RuntimeGraphStoreItem V))
  | deleted
  deriving DecidableEq

def answerChanged {S α : Type} (store : S) (reply : α → GraphStoreReply V) :
    Except StoreError (α × S) → Except StoreError (GraphStoreReply V) × S
  | .ok (answer, store') => (.ok (reply answer), store')
  | .error error => (.error error, store)

def MemoryRuntimeGraphStore.answer (store : MemoryRuntimeGraphStore V) :
    GraphStoreCall V → Except StoreError (GraphStoreReply V) × MemoryRuntimeGraphStore V
  | .put ns key value now => answerChanged store (.item ∘ some) (store.put now ns key value)
  | .get ns key _ => ((store.get ns key).map .item, store)
  | .delete ns key => answerChanged store (fun _ => .deleted) ((store.delete ns key).map ((), ·))
  | .list ns => ((store.list ns).map .items, store)
  | .search ns => ((store.search ns).map .items, store)

def FileRuntimeGraphStore.answer (sha256 : String → String) (store : FileRuntimeGraphStore V) :
    GraphStoreCall V → Except StoreError (GraphStoreReply V) × FileRuntimeGraphStore V
  | .put ns key value now => answerChanged store (.item ∘ some) (store.put sha256 now ns key value)
  | .get ns key _ => ((store.get sha256 ns key).map .item, store)
  | .delete ns key =>
    answerChanged store (fun _ => .deleted) ((store.delete sha256 ns key).map ((), ·))
  | .list ns => ((store.list sha256 ns).map .items, store)
  | .search ns => ((store.search ns).map .items, store)

def TursoRuntimeGraphStore.answer (store : TursoRuntimeGraphStore V) :
    GraphStoreCall V → Except StoreError (GraphStoreReply V) × TursoRuntimeGraphStore V
  | .put ns key value now =>
    answerChanged store (.item ∘ some) (.ok (store.put now ns key value))
  | .get ns key again => (.ok (.item (store.get ns key again)), store)
  | .delete ns key => (.ok .deleted, store.delete ns key)
  | .list ns => (.ok (.items (store.list ns)), store)
  | .search ns => (.ok (.items (store.search ns)), store)

def MemoryRuntimeGraphStore.after (calls : List (GraphStoreCall V)) : MemoryRuntimeGraphStore V :=
  run (fun store call => (store.answer call).2) {} calls

def FileRuntimeGraphStore.after (sha256 : String → String) (calls : List (GraphStoreCall V)) :
    FileRuntimeGraphStore V :=
  run (fun store call => (store.answer sha256 call).2) {} calls

def TursoRuntimeGraphStore.after (calls : List (GraphStoreCall V)) : TursoRuntimeGraphStore V :=
  run (fun store call => (store.answer call).2) {} calls

end PooFlow

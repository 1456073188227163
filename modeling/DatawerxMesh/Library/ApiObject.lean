import DatawerxMesh.Library.Script
import Mathlib.Data.List.AList

/-!
# Objects of an API server

An object with finalizers is marked by a deletion and goes with its last finalizer.  An update is
refused when the object is no longer the one that was read.
-/

namespace ApiServer

open Function List

/-- An object as a server holds it; one without finalizers is not being deleted. -/
structure Held (φ β : Type) where
  finalizers : List φ
  /-- Deletion was requested. -/
  deleting : Bool
  body : β
  kept : deleting = true → finalizers ≠ []
  deriving DecidableEq

namespace Held

variable {φ β : Type}

/-- A new object. -/
def create (finalizers : List φ) (body : β) : Held φ β := ⟨finalizers, false, body, by simp⟩

/-- The object with another body. -/
def withBody (held : Held φ β) (body : β) : Held φ β := { held with body }

/-- The object with another body, or a new one. -/
def rewrite (stored : Option (Held φ β)) (body : β) : Held φ β :=
  stored.elim (create [] body) (withBody · body)

theorem rewrite_rewrite (stored : Option (Held φ β)) (body body' : β) :
    rewrite (some (rewrite stored body)) body' = rewrite stored body' := by
  cases stored with
  | none => rfl
  | some held => rfl

theorem body_rewrite (stored : Option (Held φ β)) (body : β) :
    (rewrite stored body).body = body := by
  cases stored with
  | none => rfl
  | some held => rfl

/-- Deletion waits for the finalizers. -/
def requestDelete [DecidableEq φ] (held : Held φ β) : Option (Held φ β) :=
  if some_left : held.finalizers ≠ [] then
    some { held with deleting := true, kept := fun _ => some_left }
  else none

/-- The last finalizer takes a deleted object with it. -/
def update [DecidableEq φ] (held : Held φ β) (finalizers : List φ) (body : β) :
    Option (Held φ β) :=
  if gone : held.deleting = true ∧ finalizers = [] then none
  else some ⟨finalizers, held.deleting, body, fun marked empty => gone ⟨marked, empty⟩⟩

theorem update_finalizers [DecidableEq φ] (held : Held φ β) (body : β) :
    held.update held.finalizers body = some (held.withBody body) := by
  rw [update, dif_neg]
  · rfl
  · rintro ⟨marked, empty⟩
    exact held.kept marked empty

/-- What is left after a deletion is not changed by another one. -/
theorem requestDelete_idem [DecidableEq φ] (held : Held φ β) :
    held.requestDelete.bind requestDelete = held.requestDelete := by
  by_cases some_left : held.finalizers ≠ []
  · rw [requestDelete, dif_pos some_left, Option.bind_some, requestDelete, dif_pos some_left]
  · rw [requestDelete, dif_neg some_left, Option.bind_none]

theorem requestDelete_eq_some [DecidableEq φ] {held marked : Held φ β}
    (left : held.requestDelete = some marked) :
    marked.deleting = true ∧ marked.finalizers = held.finalizers ∧ marked.body = held.body := by
  rw [requestDelete] at left
  split at left
  case isTrue =>
    obtain rfl := Option.some.inj left
    exact ⟨rfl, rfl, rfl⟩
  case isFalse => cases left

end Held

/-- The requests that change an object. -/
inductive Write (φ β : Type) where
  | create (finalizers : List φ) (body : β)
  | update (read : Held φ β) (finalizers : List φ) (body : β)
  | delete

/-- The object after a request, unless the request is refused. -/
def Write.apply {φ β : Type} [DecidableEq φ] [DecidableEq β] :
    Write φ β → Option (Held φ β) → Option (Option (Held φ β))
  | create finalizers body, none => some (some (.create finalizers body))
  | update read finalizers body, some held =>
    if held = read then some (held.update finalizers body) else none
  | delete, some held => some held.requestDelete
  | create _ _, some _ | update _ _ _, none | delete, none => none

section Apply

variable {φ β : Type} [DecidableEq φ] [DecidableEq β] {finalizers : List φ} {body : β}
  {stored object : Option (Held φ β)}

theorem Write.apply_create_eq_some :
    (create finalizers body).apply stored = some object ↔
      stored = none ∧ object = some (.create finalizers body) := by
  cases stored with
  | none => simp [apply, eq_comm]
  | some held => simp [apply]

theorem Write.apply_update_eq_some {read : Held φ β} :
    (update read finalizers body).apply stored = some object ↔
      stored = some read ∧ object = read.update finalizers body := by
  cases stored with
  | none => simp [apply]
  | some held =>
    rw [apply]
    split
    case isTrue same => simp [same, eq_comm]
    case isFalse differs => simp [differs]

theorem Write.apply_delete_eq_some :
    (delete : Write φ β).apply stored = some object ↔
      ∃ held, stored = some held ∧ object = held.requestDelete := by
  cases stored with
  | none => simp [apply]
  | some held => simp [apply, eq_comm]

end Apply

/-- An error, which may say that the object does not exist. -/
structure Error (τ : Type) where
  notFound : Bool
  text : τ

/-- A request is carried out, or fails and may still have been carried out.  Only a request for a
missing object is answered with `notFound`. -/
def Answers {σ ν τ : Type} (carried : σ → ν → σ → Prop) (missing : σ → Prop) (before : σ)
    (answer : Except (Error τ) ν) (after : σ) : Prop :=
  (∃ value, answer = .ok value ∧ carried before value after) ∨
    ∃ error, answer = .error error ∧ (error.notFound = true → missing before) ∧
      (after = before ∨ ∃ value, carried before value after)

/-- However a request ends, the state is the old one or the one after the request. -/
theorem Answers.effect {σ ν τ : Type} {carried : σ → ν → σ → Prop} {missing : σ → Prop}
    {before after : σ} {answer : Except (Error τ) ν}
    (answers : Answers carried missing before answer after) :
    after = before ∨ ∃ value, carried before value after := by
  obtain ⟨value, -, done⟩ | ⟨_, -, -, either⟩ := answers
  · exact Or.inr ⟨value, done⟩
  · exact either

/-- Read an object, then create it, or update it if the function changes it. -/
def createOrUpdate {Call : Type} {Answer : Call → Type} {φ β τ : Type} [DecidableEq β]
    (get : Program.Script Call Answer (Except (Error τ) (Held φ β)))
    (write : Write φ β → Program.Script Call Answer (Except (Error τ) Unit)) (empty : β)
    (mutate : β → β) : Program.Script Call Answer (Except (Error τ) Unit) := do
  match ← get with
  | .error error =>
    if error.notFound then write (.create [] (mutate empty)) else pure (.error error)
  | .ok existing =>
    if mutate existing.body = existing.body then pure (.ok ())
    else write (.update existing existing.finalizers (mutate existing.body))

section Runs

variable {Call : Type} {Answer : Call → Type} {φ β τ σ : Type} [DecidableEq β]
  {handle : (request : Call) → σ → Answer request × σ} {state : σ}
  {get : Program.Script Call Answer (Except (Error τ) (Held φ β))}
  {write : Write φ β → Program.Script Call Answer (Except (Error τ) Unit)} {empty : β}
  {mutate : β → β}

theorem exec_create {error : Error τ} (missing : error.notFound = true)
    (read : get.exec handle state = (.error error, state)) :
    (createOrUpdate get write empty mutate).exec handle state =
      (write (.create [] (mutate empty))).exec handle state := by
  rw [createOrUpdate, Program.Script.exec_bind, read]
  dsimp only
  rw [if_pos missing]

theorem exec_update {held : Held φ β} (read : get.exec handle state = (.ok held, state)) :
    (createOrUpdate get write empty mutate).exec handle state =
      if mutate held.body = held.body then (.ok (), state)
      else (write (.update held held.finalizers (mutate held.body))).exec handle state := by
  rw [createOrUpdate, Program.Script.exec_bind, read]
  dsimp only
  split
  · rfl
  · rfl

end Runs

/-- Named objects of one kind. -/
abbrev Store (κ φ β : Type) : Type := AList fun _ : κ => Held φ β

namespace Store

variable {κ φ β : Type} (store : Store κ φ β)

/-- The objects that are selected, with their names. -/
def list (selects : Held φ β → Bool) : List (κ × Held φ β) :=
  (store.entries.filter fun entry => selects entry.2).map fun entry => (entry.1, entry.2)

theorem nodup_list (selects : Held φ β → Bool) : ((store.list selects).map Prod.fst).Nodup := by
  have keys : (store.list selects).map Prod.fst =
      (store.entries.filter fun entry => selects entry.2).keys := by
    simp [list, List.keys]
  rw [keys]
  exact Nodup.sublist (Sublist.map _ filter_sublist) store.nodupKeys

variable [DecidableEq κ]

/-- The object of a name. -/
def find (name : κ) : Option (Held φ β) := store.lookup name

/-- Set or remove the object with a name. -/
def put (name : κ) : Option (Held φ β) → Store κ φ β
  | some held => store.insert name held
  | none => store.erase name

@[simp] theorem find_put (name : κ) (object : Option (Held φ β)) :
    (store.put name object).find = Function.update store.find name object := by
  funext other
  by_cases same : other = name
  · subst same
    cases object with
    | none => simp [put, find]
    | some held => simp [put, find]
  · cases object with
    | none => simp [put, find, update_of_ne same, AList.lookup_erase_ne same]
    | some held => simp [put, find, update_of_ne same, AList.lookup_insert_ne same]

/-- What `createOrUpdate` does when its requests are carried out. -/
def write [DecidableEq β] (store : Store κ φ β) (name : κ) (empty : β) (mutate : β → β) :
    Store κ φ β :=
  match store.find name with
  | none => store.put name (some (.create [] (mutate empty)))
  | some held =>
    if mutate held.body = held.body then store
    else store.put name (some (held.withBody (mutate held.body)))

/-- What a deletion does, if there is an object. -/
def delete [DecidableEq φ] (store : Store κ φ β) (name : κ) : Store κ φ β :=
  match store.find name with
  | none => store
  | some held => store.put name held.requestDelete

theorem write_eq_self [DecidableEq β] {store : Store κ φ β} {name : κ} {held : Held φ β}
    (found : store.find name = some held) (empty : β) {mutate : β → β}
    (same : mutate held.body = held.body) : store.write name empty mutate = store := by
  rw [write, found]
  exact if_pos same

theorem find_write [DecidableEq β] (store : Store κ φ β) (name : κ) (empty : β) (mutate : β → β) :
    (store.write name empty mutate).find = Function.update store.find name
      (some (.rewrite (store.find name) (mutate ((store.find name).elim empty Held.body)))) := by
  cases found : store.find name with
  | none =>
    rw [write, found]
    exact find_put _ _ _
  | some held =>
    by_cases same : mutate held.body = held.body
    · rw [write_eq_self found empty same, eq_comm, update_eq_self_iff, found]
      exact congrArg (fun body => some { held with body }) same
    · rw [write, found]
      dsimp only
      rw [if_neg same]
      exact find_put _ _ _

theorem find_delete [DecidableEq φ] (store : Store κ φ β) (name : κ) :
    (store.delete name).find =
      Function.update store.find name ((store.find name).bind Held.requestDelete) := by
  cases found : store.find name with
  | none =>
    rw [delete, found, eq_comm, update_eq_self_iff, found]
    rfl
  | some held =>
    rw [delete, found]
    exact find_put _ _ _

theorem find_deletes [DecidableEq φ] (store : Store κ φ β) (names : List κ) (name : κ) :
    (names.foldl delete store).find name =
      if name ∈ names then (store.find name).bind Held.requestDelete else store.find name := by
  induction names generalizing store with
  | nil => rw [if_neg (by simp), foldl_nil]
  | cons first rest ih =>
    rw [foldl_cons, ih, find_delete]
    by_cases same : name = first
    · subst same
      rw [update_self, if_pos mem_cons_self]
      cases store.find name with
      | none => simp
      | some held => simp [Held.requestDelete_idem]
    · simp [same]

theorem mem_list {store : Store κ φ β} {selects : Held φ β → Bool} {name : κ} {held : Held φ β} :
    (name, held) ∈ store.list selects ↔ store.find name = some held ∧ selects held = true := by
  have listed : (⟨name, held⟩ : (_ : κ) × Held φ β) ∈ store.entries ↔
      store.find name = some held := AList.mem_lookup_iff.symm
  simp only [list, mem_map, mem_filter]
  constructor
  · rintro ⟨⟨other, stored⟩, ⟨mem, selected⟩, same⟩
    obtain ⟨rfl, rfl⟩ := Prod.mk.inj same
    exact ⟨listed.mp mem, selected⟩
  · rintro ⟨found, selected⟩
    exact ⟨⟨name, held⟩, ⟨listed.mpr found, selected⟩, rfl⟩

end Store

end ApiServer

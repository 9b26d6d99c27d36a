import DocumentServer.Gateway.Handlers
import DocumentServer.Proofs.KeyMap

/-! Requests about objects of one database that are served side by side. A worker makes its
transactions one after the other, and between two of them come those of any other workers. A
deletion looks for the object and drops it in one transaction, so its answer tells what it did. A
put looks in one transaction and writes in another, so its answer tells whether the object was there
when it looked, which need not be so any more when it writes. What a key holds in the end is what
the last transaction that wrote it left there. -/
namespace DocumentServer

structure ObjectRequest where
  method : String
  key : String
  body : Bytes

namespace Work

/-- What the next transaction of a worker writes: a key with its document, or with none once it is
dropped. -/
def write? : Work → Option (String × Option Document)
  | put key document _ => some (key, some document)
  | delete key _ => some (key, none)
  | _ => none

def status? (work : Work) : Option Nat :=
  work.result?.bind fun
    | .ok (.full response) => some response.status.val
    | .ok (.stream _) => none
    | .error response => some response.status.val

/-- A transaction changes the key that it writes and no other. -/
theorem get?_step (work : Work) (store : ObjectStore) (key : String) :
    (work.step store).2.objects.get? key =
      match work.write? with
      | some (written, document) =>
        if key = written then document.map Document.text else store.objects.get? key
      | none => store.objects.get? key := by
  cases work with
  | reply => rfl
  | get => rfl
  | contains => rfl
  | put written document => exact KeyMap.get?_insert ..
  | delete written next =>
    simp only [step, ObjectStore.delete, write?]
    cases hcontains : store.contains written with
    | true => exact KeyMap.get?_erase ..
    | false =>
      -- There is nothing to drop, and nothing is found under the key before and after.
      rw [ObjectStore.contains, KeyMap.contains, Option.isSome_eq_false_iff,
        Option.isNone_iff_eq_none] at hcontains
      by_cases h : key = written
      · rw [if_pos h, h]
        exact hcontains
      · rw [if_neg h]
        rfl

end Work

structure Crew where
  workers : List Work
  store : ObjectStore

namespace Crew

/-- The workers for requests about a database, before any of them has begun. -/
def ofRequests (name : String) (requests : List ObjectRequest) (store : ObjectStore) : Crew :=
  ⟨requests.map fun request => Handlers.objectWork request.method name request.key request.body,
    store⟩

def step (crew : Crew) (i : Nat) : Crew :=
  match crew.workers[i]? with
  | none => crew
  | some work => ⟨crew.workers.set i (work.step crew.store).1, (work.step crew.store).2⟩

/-- Transactions one after the other, each of the worker whose turn it is. -/
def run (crew : Crew) (turns : List Nat) : Crew := turns.foldl step crew

def status? (crew : Crew) (i : Nat) : Option Nat := crew.workers[i]?.bind (·.status?)

def write? (crew : Crew) (i : Nat) : Option (String × Option Document) :=
  crew.workers[i]?.bind (·.write?)

/-- What the transactions of a run write, in their order. -/
def written (crew : Crew) : List Nat → List (String × Option Document)
  | [] => []
  | i :: rest => (crew.write? i).toList ++ (crew.step i).written rest

/-- What was written last under a key. -/
def lastWrite? (key : String) (writes : List (String × Option Document)) :
    Option (Option Document) :=
  (writes.filter (·.1 = key)).getLast?.map (·.2)

/-! ### One transaction -/

variable {crew : Crew} {i : Nat} {work : Work}

theorem step_of_worker (h : crew.workers[i]? = some work) :
    crew.step i = ⟨crew.workers.set i (work.step crew.store).1, (work.step crew.store).2⟩ := by
  simp only [step, h]

theorem workers_step_self (h : crew.workers[i]? = some work) :
    (crew.step i).workers[i]? = some (work.step crew.store).1 := by
  rw [step_of_worker h]
  exact List.getElem?_set_self (List.getElem?_eq_some_iff.1 h).1

theorem workers_step_ne (crew : Crew) {i j : Nat} (h : i ≠ j) :
    (crew.step j).workers[i]? = crew.workers[i]? := by
  unfold step
  split
  next => rfl
  next => exact List.getElem?_set_ne h.symm

theorem get?_step (crew : Crew) (i : Nat) (key : String) :
    (crew.step i).store.objects.get? key =
      match crew.write? i with
      | some (written, document) =>
        if key = written then document.map Document.text else crew.store.objects.get? key
      | none => crew.store.objects.get? key := by
  cases hwork : crew.workers[i]? with
  | none => simp only [step, write?, hwork, Option.bind_none]
  | some work =>
    simp only [step_of_worker hwork, write?, hwork, Option.bind_some]
    exact work.get?_step crew.store key

/-! ### Runs -/

theorem run_append (crew : Crew) (turns later : List Nat) :
    crew.run (turns ++ later) = (crew.run turns).run later := List.foldl_append

theorem run_cons (crew : Crew) (i : Nat) (turns : List Nat) :
    crew.run (i :: turns) = (crew.step i).run turns := rfl

theorem run_append_cons (crew : Crew) (turns : List Nat) (i : Nat) (later : List Nat) :
    crew.run (turns ++ i :: later) = (crew.run (turns ++ [i])).run later := by
  rw [List.append_cons, run_append]

/-- A worker that has no turn stays as it is. -/
theorem workers_run (crew : Crew) {turns : List Nat} (h : i ∉ turns) :
    (crew.run turns).workers[i]? = crew.workers[i]? := by
  induction turns generalizing crew with
  | nil => rfl
  | cons j rest ih =>
    obtain ⟨hhead, hrest⟩ := List.ne_and_not_mem_of_not_mem_cons h
    rw [run_cons, ih _ hrest, workers_step_ne crew hhead]

/-- A worker that is done gives the same answer from then on. -/
theorem workers_run_reply {result : HandlerResult} (h : crew.workers[i]? = some (.reply result))
    (turns : List Nat) : (crew.run turns).workers[i]? = some (.reply result) := by
  induction turns generalizing crew with
  | nil => exact h
  | cons j rest ih =>
    refine ih ?_
    by_cases hij : i = j
    · rw [← hij, workers_step_self h]
      rfl
    · rw [workers_step_ne crew hij, h]

/-- What is written last stays, and a key that is not written holds what it held. -/
theorem get?_run (crew : Crew) (turns : List Nat) (key : String) :
    (crew.run turns).store.objects.get? key =
      match lastWrite? key (crew.written turns) with
      | some document => document.map Document.text
      | none => crew.store.objects.get? key := by
  induction turns generalizing crew with
  | nil => rfl
  | cons i rest ih =>
    rw [run_cons, ih, get?_step, written, lastWrite?, lastWrite?, List.filter_append,
      List.getLast?_append]
    cases hlater : (((crew.step i).written rest).filter (·.1 = key)).getLast? with
    | some write => rfl
    | none =>
      cases hwrite : crew.write? i with
      | none => rfl
      | some write =>
        by_cases hkey : key = write.1
        · simp [hkey]
        · simp [hkey, Ne.symm hkey]

theorem get?_run_of_forall_ne {turns : List Nat} {key : String}
    (h : ∀ write ∈ crew.written turns, write.1 ≠ key) :
    (crew.run turns).store.objects.get? key = crew.store.objects.get? key := by
  have hnone : (crew.written turns).filter (·.1 = key) = [] := by
    rw [List.filter_eq_nil_iff]
    intro write hwrite
    simpa using h write hwrite
  rw [get?_run, lastWrite?, hnone]
  rfl

/-! ### Puts and deletions -/

open Handlers (objectId objectNotFound putObject deleteObject)

/-- A worker finds the store as it is when its turn comes. -/
theorem workers_run_turn {before : List Nat} (h : crew.workers[i]? = some work)
    (hbefore : i ∉ before) :
    (crew.run (before ++ [i])).workers[i]? = some (work.step (crew.run before).store).1 ∧
      (crew.run (before ++ [i])).store = (work.step (crew.run before).store).2 := by
  have hwaiting : (crew.run before).workers[i]? = some work := by rw [workers_run crew hbefore, h]
  rw [run_append, run_cons]
  exact ⟨workers_step_self hwaiting, congrArg Crew.store (step_of_worker hwaiting)⟩

theorem status?_of_reply {result : HandlerResult} (h : crew.workers[i]? = some (.reply result))
    (turns : List Nat) : (crew.run turns).status? i = (Work.reply result).status? := by
  rw [status?, workers_run_reply h, Option.bind_some]

/-- A put answers by what it found when it looked, and writes at its next turn. -/
theorem run_put {key : String} {body : Bytes} {document : Document}
    (hwork : crew.workers[i]? = some (putObject key body))
    (hbody : Document.decode body = .ok document) {before between : List Nat}
    (hbefore : i ∉ before) (hbetween : i ∉ between) (later : List Nat) :
    let looked := (crew.run before).store
    let found := (crew.run (before ++ i :: between)).store
    (crew.run (before ++ i :: (between ++ i :: later))).status? i =
        some (if looked.contains key then 200 else 201) ∧
      (crew.run (before ++ i :: (between ++ [i]))).store = found.put key document := by
  simp only [putObject, hbody] at hwork
  obtain ⟨hlooked, -⟩ := workers_run_turn hwork hbefore
  obtain ⟨hdone, hstore⟩ := workers_run_turn hlooked hbetween
  intro looked found
  have hlater (rest : List Nat) :
      crew.run (before ++ i :: rest) = (crew.run (before ++ [i])).run rest := run_append_cons ..
  constructor
  · rw [hlater, run_append_cons _ between, status?_of_reply hdone]
    show (Work.reply (.ok (.full (if looked.contains key then _ else _)))).status? = _
    cases looked.contains key <;> rfl
  · rw [hlater, hstore, ← hlater]
    rfl

/-- A deletion answers by what it did. -/
theorem run_delete {name key : String} (hwork : crew.workers[i]? = some (deleteObject name key))
    {before : List Nat} (hbefore : i ∉ before) (later : List Nat) :
    let found := (crew.run before).store
    (crew.run (before ++ i :: later)).status? i =
        some (if found.contains key then 204 else 404) ∧
      (crew.run (before ++ [i])).store = found.erase key := by
  obtain ⟨hdone, hstore⟩ := workers_run_turn hwork hbefore
  rw [run_append_cons, hstore]
  simp only [deleteObject, Work.step, ObjectStore.delete] at hdone ⊢
  cases hcontains : (crew.run before).store.contains key with
  | true =>
    simp only [hcontains, ↓reduceIte] at hdone
    rw [status?_of_reply hdone]
    exact ⟨rfl, rfl⟩
  | false =>
    simp only [hcontains, Bool.false_eq_true, ↓reduceIte] at hdone
    rw [status?_of_reply hdone]
    refine ⟨rfl, ?_⟩
    rw [ObjectStore.erase, KeyMap.erase_eq_self hcontains]
    rfl

theorem worker_ofRequests (name : String) {requests : List ObjectRequest} {request : ObjectRequest}
    (h : requests[i]? = some request) (store : ObjectStore) :
    (ofRequests name requests store).workers[i]? =
      some (Handlers.objectWork request.method name request.key request.body) := by
  rw [ofRequests, List.getElem?_map, h, Option.map_some]

/-- However the transactions of workers fall together: a put answers by what was there when it
looked, so its answer is the one for the moment when it writes unless others write the key in
between; a deletion answers by what it dropped; and every key holds what was written last. -/
theorem answers_at_turns (name : String) (requests : List ObjectRequest) (store : ObjectStore)
    (turns : List Nat) :
    let crew := ofRequests name requests store
    (∀ i request document before between later, requests[i]? = some request →
      request.method = "PUT" → Document.decode request.body = .ok document →
      turns = before ++ i :: (between ++ i :: later) → i ∉ before → i ∉ between →
      let looked := (crew.run before).store
      let found := (crew.run (before ++ i :: between)).store
      (crew.run turns).status? i = some (if looked.contains request.key then 200 else 201) ∧
        (crew.run (before ++ i :: (between ++ [i]))).store = found.put request.key document ∧
        ((∀ write ∈ (crew.run (before ++ [i])).written between, write.1 ≠ request.key) →
          found.contains request.key = looked.contains request.key)) ∧
    (∀ i request before later, requests[i]? = some request → request.method = "DELETE" →
      turns = before ++ i :: later → i ∉ before →
      let found := (crew.run before).store
      (crew.run turns).status? i = some (if found.contains request.key then 204 else 404) ∧
        (crew.run (before ++ [i])).store = found.erase request.key) ∧
    ∀ key, (crew.run turns).store.objects.get? key =
      match lastWrite? key (crew.written turns) with
      | some document => document.map Document.text
      | none => store.objects.get? key := by
  intro crew
  refine ⟨?_, ?_, fun key => crew.get?_run turns key⟩
  · intro i request document before between later hrequest hmethod hbody hturns hbefore hbetween
    have hwork := worker_ofRequests name hrequest store
    rw [hmethod, Handlers.objectWork, if_neg (by decide), if_pos rfl] at hwork
    obtain ⟨hstatus, hstore⟩ := run_put hwork hbody hbefore hbetween later
    refine ⟨hturns ▸ hstatus, hstore, fun hothers => ?_⟩
    have hlooked : (crew.run (before ++ [i])).store = (crew.run before).store := by
      rw [(workers_run_turn hwork hbefore).2, putObject, hbody]
      rfl
    have hkept := get?_run_of_forall_ne hothers
    rw [← run_append_cons, hlooked] at hkept
    exact congrArg Option.isSome hkept
  · intro i request before later hrequest hmethod hturns hbefore
    have hwork := worker_ofRequests name hrequest store
    rw [hmethod, Handlers.objectWork, if_neg (by decide), if_neg (by decide), if_pos rfl] at hwork
    rw [hturns]
    exact run_delete hwork hbefore later

/-- Two puts look before either writes, and both answer that they made the object. -/
theorem answers_at_turns_past_race :
    let put : ObjectRequest := ⟨"PUT", "k", .ofString "1"⟩
    let crew := ofRequests "db" [put, put] ∅
    (crew.run [0, 1, 0, 1]).status? 0 = some 201 ∧ (crew.run [0, 1, 0, 1]).status? 1 = some 201 ∧
      (crew.run [0, 1, 0]).store.contains "k" = true := by
  intro put crew
  have hbody : Document.decode put.body = .ok (.integer 1) := by rfl
  have h := (answers_at_turns "db" [put, put] ∅ [0, 1, 0, 1]).1
  have hfirst := h 0 put _ [] [1] [1] rfl rfl hbody rfl (by decide) (by decide)
  have hsecond := h 1 put _ [0] [0] [] rfl rfl hbody rfl (by decide) (by decide)
  exact ⟨hfirst.1, hsecond.1, by rfl⟩

/-- Not every put tells whether the object was there when it was written. -/
theorem not_exact_when_written :
    ¬ ∀ (name : String) (requests : List ObjectRequest) (store : ObjectStore) (turns : List Nat)
      (i : Nat) (request : ObjectRequest) (document : Document) (before between later : List Nat),
      requests[i]? = some request → request.method = "PUT" →
      Document.decode request.body = .ok document →
      turns = before ++ i :: (between ++ i :: later) → i ∉ before → i ∉ between →
      let crew := ofRequests name requests store
      ((crew.run turns).status? i = some 201 ↔
        (crew.run (before ++ i :: between)).store.contains request.key = false) := by
  intro h
  let put : ObjectRequest := ⟨"PUT", "k", .ofString "1"⟩
  have hbody : Document.decode put.body = .ok (.integer 1) := by rfl
  have hsecond := h "db" [put, put] ∅ [0, 1, 0, 1] 1 put _ [0] [0] [] rfl rfl hbody rfl
    (by decide) (by decide)
  have habsent := hsecond.1 (by rfl)
  have hthere : ((ofRequests "db" [put, put] ∅).run [0, 1, 0]).store.contains "k" = true := by rfl
  exact absurd (habsent.symm.trans hthere) (by decide)

end Crew

end DocumentServer

import DocumentServer.Reply
import DocumentServer.Store.Basic

/-! Work on one object of a database: transactions one after the other, each on the store as it is
then, and a reply at the end. Between two transactions of one worker those of others may happen; the
work says only what it does next. -/
namespace DocumentServer

/-- What a worker does next, and after that. -/
inductive Work where
  | reply (result : HandlerResult)
  | get (key : String) (next : Except DbError (Option Document) → Work)
  | contains (key : String) (next : Bool → Work)
  | put (key : String) (document : Document) (next : Work)
  | delete (key : String) (next : Except DbError Unit → Work)

namespace Work

def result? : Work → Option HandlerResult
  | reply result => some result
  | _ => none

def step (store : ObjectStore) : Work → Work × ObjectStore
  | reply result => (reply result, store)
  | get key next => (next (store.get key), store)
  | contains key next => (next (store.contains key), store)
  | put key document next => (next, store.put key document)
  | delete key next =>
    match store.delete key with
    | .ok store => (next (.ok ()), store)
    | .error error => (next (.error error), store)

def run (store : ObjectStore) : Work → HandlerResult × ObjectStore
  | reply result => (result, store)
  | get key next => (next (store.get key)).run store
  | contains key next => (next (store.contains key)).run store
  | put key document next => next.run (store.put key document)
  | delete key next =>
    match store.delete key with
    | .ok store => (next (.ok ())).run store
    | .error error => (next (.error error)).run store

end Work

end DocumentServer

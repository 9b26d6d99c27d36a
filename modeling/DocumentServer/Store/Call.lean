import DocumentServer.Store.Paging

/-! The calls that every way to a store offers, as values, so that the same call can be made through
any of them. -/
namespace DocumentServer

inductive StoreCall where
  | get (key : String)
  | set (key : String) (document : Document)
  | delete (key : String)
  | contains (key : String)
  | size
  | keys
  /-- The first entries, or all of them. -/
  | items (count : Option Nat)

inductive StoreAnswer where
  | document (found : Option Document)
  | done
  | flag (value : Bool)
  | count (value : Nat)
  | names (names : List String)
  | items (items : List StoreItem)

namespace ObjectStore

/-- Makes a call. A call that fails changes nothing. -/
def call (store : ObjectStore) : StoreCall → Except DbError StoreAnswer × ObjectStore
  | .get key => ((store.get key).map .document, store)
  | .set key document => (.ok .done, store.put key document)
  | .delete key =>
    match store.delete key with
    | .ok store => (.ok .done, store)
    | .error error => (.error error, store)
  | .contains key => (.ok (.flag (store.contains key)), store)
  | .size => (.ok (.count store.size), store)
  | .keys => (.ok (.names store.keys), store)
  | .items none => (.ok (.items (Paging.allItems store)), store)
  | .items (some count) => (.ok (.items (Paging.takeItems store count .fresh).1), store)

def callEach (store : ObjectStore) :
    List StoreCall → List (Except DbError StoreAnswer) × ObjectStore
  | [] => ([], store)
  | call :: rest =>
    let (answer, store) := store.call call
    let (answers, store) := store.callEach rest
    (answer :: answers, store)

end ObjectStore

end DocumentServer

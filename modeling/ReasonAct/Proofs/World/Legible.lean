import Mathlib.Data.List.Forall2
import Mathlib.Data.List.Nodup
import ReasonAct.Proofs.Arena.Validity
import ReasonAct.Proofs.World.Code
import ReasonAct.Proofs.World.Teardown
/-!
The texts of registered tools. An entry has only handles, but as long as its session is open the
arena of the session gives the texts back that were copied for it, whatever is added by whom.
-/
set_option autoImplicit false

namespace ReasonAct

open Arena (Change Handle Host since)

def Arena.Copied (es : List Change) (text : String) (h : Handle) : Prop :=
  ∃ found, .issued (.text text) h found ∈ since es

theorem Arena.Copied.later {es new : List Change} {text : String} {h : Handle}
    (hc : Arena.Copied es text h) (hnew : ∀ e ∈ new, e.continues = true) :
    Arena.Copied (new ++ es) text h := by
  obtain ⟨found,hm⟩ := hc
  exact ⟨found,by rw [Arena.since_append hnew]; exact List.mem_append_right _ hm⟩

theorem Arena.Holds.readText {a : Arena} {es : List Change} {text : String} {h : Handle}
    (hs : a.Holds es) (hc : Arena.Copied es text h) : a.readText h = some text := by
  obtain ⟨found,hm⟩ := hc
  have hlive := Arena.Holds.live_of_text hm
  have hbytes : a.read h = some (Text.Utf8.encode text) := by
    rw [(hs.placed h hlive).read_eq,hs.texts text h found hm]
  simp [Arena.readText,hbytes]

/-- The first of the texts that an arena has no room for, when they are copied one by one. -/
def SharedArena.refused? (host : Host) : SharedArena → List String → Option String
  | _, [] => none
  | s, text :: texts =>
    match s.allocText host text with
    | none => some text
    | some (_, s) => s.refused? host texts

namespace World

variable {w w' : World}

structure Recalls (es : List Change) (e : Entry) (d : ToolDescriptor) : Prop where
  name : Arena.Copied es d.name e.name
  description : Arena.Copied es d.description e.description
  parameters : Arena.Copied es d.parameters e.schema
  tool : e.tool = d.tool

theorem Recalls.later {es new : List Change} {e : Entry} {d : ToolDescriptor}
    (h : Recalls es e d) (hnew : ∀ x ∈ new, x.continues = true) : Recalls (new ++ es) e d :=
  ⟨h.name.later hnew,h.description.later hnew,h.parameters.later hnew,h.tool⟩

theorem Recalls.describe {es : List Change} {e : Entry} {d : ToolDescriptor} {s : SharedArena}
    {a : Arena} (h : Recalls es e d) (ha : s.inner = some a) (hs : a.Holds es) :
    describe s e = some d := by
  simp [World.describe,SharedArena.readText,ha,hs.readText h.name,hs.readText h.description,
    hs.readText h.parameters,h.tool]

section Copying

variable {s : SharedArena} {a : Arena} {es : List Change} (ha : s.inner = some a) (hs : a.Holds es)

def outOfRoom (text : String) : Error :=
  .outOfMemory ("arena refused " ++ toString text.utf8ByteSize ++ " bytes")

include ha hs

theorem copyIn_cases (host : Host) (text : String) :
    (s.allocText host text = none ∧ copyIn host text s = .error (outOfRoom text)) ∨
    ∃ h s' a' found, s.allocText host text = some (h, s') ∧ copyIn host text s = .ok (h, s') ∧
      s'.inner = some a' ∧ a'.Holds (.issued (.text text) h found :: es) := by
  have halloc : s.allocText host text =
      (a.allocText host text).map fun r => (r.1, { s with inner := some r.2 }) := by
    simp only [SharedArena.allocText,SharedArena.issue,ha,Option.bind_eq_bind,Option.bind_some]
    cases a.allocText host text <;> rfl
  cases hr : a.allocText host text with
  | none =>
    refine .inl ⟨by simp [halloc,hr],?_⟩
    simp [copyIn,halloc,hr,SharedArena.isDestroyed,ha,outOfRoom]
  | some r =>
    obtain ⟨h,a'⟩ := r
    have hserve : (Arena.Request.text text).serve host a = some (h, a') := hr
    refine .inr ⟨h,_,a',_,by rw [halloc,hr]; rfl,?_,rfl,(hs.serve hserve).2⟩
    simp [copyIn,halloc,hr]

theorem copyEntry_spec (host : Host) (tool : Tool) (schema : String) :
    ∃ new a', (copyEntry host tool schema s).2.inner = some a' ∧ a'.Holds (new ++ es) ∧
      (∀ x ∈ new, x.continues = true) ∧
      match s.refused? host [tool.name, tool.description, schema] with
      | some text => (copyEntry host tool schema s).1 = .error (outOfRoom text)
      | none => ∃ e, (copyEntry host tool schema s).1 = .ok e ∧
        Recalls (new ++ es) e ⟨tool.name, tool.description, schema, tool⟩ := by
  rcases copyIn_cases ha hs host tool.name with ⟨hn,hc⟩ | ⟨h₁,s₁,a₁,found₁,hn,hc,ha₁,hs₁⟩
  · refine ⟨[],a,?_,hs,by simp,?_⟩
    · simpa [copyEntry,hc] using ha
    · simp [SharedArena.refused?,hn,copyEntry,hc]
  rcases copyIn_cases ha₁ hs₁ host tool.description with
    ⟨hn',hc'⟩ | ⟨h₂,s₂,a₂,found₂,hn',hc',ha₂,hs₂⟩
  · refine ⟨[_],a₁,?_,hs₁,by simp [Change.continues],?_⟩
    · simpa [copyEntry,hc,hc'] using ha₁
    · simp [SharedArena.refused?,hn,hn',copyEntry,hc,hc']
  rcases copyIn_cases ha₂ hs₂ host schema with ⟨hn'',hc''⟩ | ⟨h₃,s₃,a₃,found₃,hn'',hc'',ha₃,hs₃⟩
  · refine ⟨[_, _],a₂,?_,hs₂,by simp [Change.continues],?_⟩
    · simpa [copyEntry,hc,hc',hc''] using ha₂
    · simp [SharedArena.refused?,hn,hn',hn'',copyEntry,hc,hc',hc'']
  · refine ⟨[_, _, _],a₃,?_,hs₃,by simp [Change.continues],?_⟩
    · simpa [copyEntry,hc,hc',hc''] using ha₃
    · simp only [SharedArena.refused?,hn,hn',hn'',copyEntry,hc,hc',hc'']
      exact ⟨_,rfl,⟨found₁,by simp⟩,⟨found₂,by simp⟩,⟨found₃,by simp⟩,rfl⟩

end Copying

/-- The entries of a registry, each with the tool whose texts it keeps. -/
structure Filed (es : List Change) (entries : List Entry) (ds : List ToolDescriptor) : Prop where
  recalls : List.Forall₂ (Recalls es) entries ds
  distinct : (ds.map ToolDescriptor.name).Nodup

theorem Filed.later {es new : List Change} {entries : List Entry} {ds : List ToolDescriptor}
    (h : Filed es entries ds) (hnew : ∀ x ∈ new, x.continues = true) :
    Filed (new ++ es) entries ds :=
  ⟨h.recalls.imp fun _ _ hr => hr.later hnew,h.distinct⟩

inductive Files (i : Nat) (registries : List Registry) (s : SharedArena) : Prop
  | there (a : Arena) (es : List Change) (at_ : s.inner = some a) (holds : a.Holds es)
      (filed : ∀ (j : Nat) (r : Registry), registries[j]? = some r → r.session = i →
        ∃ ds, Filed es r.entries ds)
  | gone (at_ : s.inner = none) (empty : ∀ (j : Nat) (r : Registry), registries[j]? = some r →
      r.session = i → r.entries = [])

/-- All entries of all registries can be read. -/
def Legible (w : World) : Prop :=
  ∀ (i : Nat) (s : Session), w.sessions[i]? = some s → Files i w.registries s.arena

theorem Files.of_registries {i : Nat} {registries registries' : List Registry} {s : SharedArena}
    (h : Files i registries s) (hr : ∀ (j : Nat) (r' : Registry), registries'[j]? = some r' →
      r'.session = i → r'.entries = [] ∨
        ∃ r : Registry, registries[j]? = some r ∧ r.session = i ∧ r.entries = r'.entries) :
    Files i registries' s := by
  cases h with
  | there a es ha hs hfiled =>
    refine .there a es ha hs ?_
    intro j r' hr' hi
    rcases hr j r' hr' hi with hnil | ⟨r,hat,hri,hsame⟩
    · exact ⟨[],by rw [hnil]; exact .nil,by simp⟩
    · obtain ⟨ds,hds⟩ := hfiled j r hat hri
      exact ⟨ds,hsame ▸ hds⟩
  | gone ha hempty =>
    refine .gone ha ?_
    intro j r' hr' hi
    rcases hr j r' hr' hi with hnil | ⟨r,hat,hri,hsame⟩
    · exact hnil
    · exact hsame ▸ hempty j r hat hri

theorem Legible.of_arenas (h : Legible w)
    (hs : w'.sessions.map Session.arena = w.sessions.map Session.arena)
    (hr : w'.registries = w.registries) : Legible w' := by
  intro i s' hs'
  obtain ⟨s,hat,heq⟩ := getElem?_of_map_eq hs hs'
  rw [← heq,hr]
  exact h i s hat

def listed (w : World) (id : Nat) : List ToolDescriptor :=
  let (es, a) := w.entriesOf id
  es.filterMap (describe a)

theorem listed_eq {id : Nat} {r : Registry} {s : Session} (hr : w.registries[id]? = some r)
    (hs : w.sessions[r.session]? = some s) :
    w.listed id = r.entries.filterMap (describe s.arena) := by
  simp [listed,entriesOf,arenaOf,hr,hs]

theorem filterMap_of_forall₂ {α β : Type} {f : α → Option β} {xs : List α} {ys : List β}
    (h : List.Forall₂ (fun x y => f x = some y) xs ys) : xs.filterMap f = ys := by
  induction h with
  | nil => rfl
  | cons hx _ ih => rw [List.filterMap_cons_some hx,ih]

section Filed

variable {s : SharedArena} {a : Arena} {es : List Change} {entries : List Entry}
  {ds : List ToolDescriptor}

theorem Filed.described (h : Filed es entries ds) (ha : s.inner = some a) (hs : a.Holds es) :
    List.Forall₂ (fun e d => describe s e = some d) entries ds :=
  h.recalls.imp fun _ _ hr => hr.describe ha hs

theorem Filed.listed (h : Filed es entries ds) (ha : s.inner = some a) (hs : a.Holds es) :
    entries.filterMap (describe s) = ds := filterMap_of_forall₂ (h.described ha hs)

theorem read_of_described {e : Entry} {d : ToolDescriptor} (h : describe s e = some d) :
    s.readText e.name = some d.name ∧ e.tool = d.tool := by
  obtain ⟨n,hn,hrest⟩ := Option.bind_eq_some_iff.mp h
  obtain ⟨description,_,hmore⟩ := Option.bind_eq_some_iff.mp hrest
  obtain ⟨schema,_,hd⟩ := Option.bind_eq_some_iff.mp hmore
  obtain rfl := Option.some.inj hd
  exact ⟨hn,rfl⟩

theorem isNamed_eq {e : Entry} {d : ToolDescriptor} (h : describe s e = some d) (name : String) :
    isNamed s name e = (d.name == name) := by
  rw [isNamed,(read_of_described h).1]
  by_cases hname : d.name = name <;> simp [hname]

theorem any_isNamed (h : List.Forall₂ (fun e d => describe s e = some d) entries ds)
    (name : String) :
    entries.any (isNamed s name) = decide (name ∈ ds.map ToolDescriptor.name) := by
  induction h with
  | nil => rfl
  | cons hd _ ih =>
    rw [List.any_cons,isNamed_eq hd,ih]
    simp [eq_comm,Bool.beq_eq_decide_eq]

theorem distinct_concat {d : ToolDescriptor} (h : (ds.map ToolDescriptor.name).Nodup)
    (hnew : d.name ∉ ds.map ToolDescriptor.name) :
    ((ds ++ [d]).map ToolDescriptor.name).Nodup := by
  rw [List.map_append,List.map_singleton,← List.concat_eq_append]
  exact List.Nodup.concat hnew h

theorem Filed.concat {e : Entry} {d : ToolDescriptor} (h : Filed es entries ds)
    (he : Recalls es e d) (hnew : d.name ∉ ds.map ToolDescriptor.name) :
    Filed es (entries ++ [e]) (ds ++ [d]) :=
  ⟨List.rel_append h.recalls (.cons he .nil),distinct_concat h.distinct hnew⟩

end Filed

section Adding

variable {i id : Nat} {r : Registry} {s : Session} {a a' : Arena} {es new : List Change}

theorem Legible.grown (hw : Legible w) (hs : w.sessions[i]? = some s) (ha : s.arena.inner = some a)
    (hold : a.Holds es) (hfiled : ∀ (j : Nat) (r : Registry), w.registries[j]? = some r →
      r.session = i → ∃ ds, Filed es r.entries ds)
    {arena : SharedArena} (ha' : arena.inner = some a') (hold' : a'.Holds (new ++ es))
    (hnew : ∀ x ∈ new, x.continues = true) :
    Legible (w.updateSession (fun s => { s with arena := arena }) i) ∧
      ∀ k, (w.updateSession (fun s => { s with arena := arena }) i).listed k = w.listed k := by
  have hget (k : Nat) : (w.updateSession (fun s => { s with arena := arena }) i).sessions[k]? =
      w.sessions[k]?.map fun s => if i = k then { s with arena := arena } else s :=
    getElem?_modify_map _ i w.sessions k
  refine ⟨?_,?_⟩
  · intro k s' hs'
    rw [hget] at hs'
    obtain ⟨s₀,hs₀,rfl⟩ := Option.map_eq_some_iff.mp hs'
    split
    · rename_i hik
      subst hik
      refine .there a' _ ha' hold' ?_
      intro j r hr hri
      obtain ⟨ds,hds⟩ := hfiled j r hr hri
      exact ⟨ds,hds.later hnew⟩
    · exact hw k s₀ hs₀
  · intro k
    cases hr : w.registries[k]? with
    | none => simp [listed,entriesOf,updateSession,hr]
    | some r =>
      have hr' : (w.updateSession (fun s => { s with arena := arena }) i).registries[k]? = some r :=
        hr
      by_cases hri : r.session = i
      · obtain ⟨ds,hds⟩ := hfiled k r hr hri
        have hs' : (w.updateSession (fun s => { s with arena := arena }) i).sessions[r.session]? =
            some { s with arena := arena } := by simp [hget,hri,hs]
        rw [listed_eq hr (hri ▸ hs),hds.listed ha hold,listed_eq hr' hs',
          (hds.later hnew).listed ha' hold']
      · have hsame : arenaOf (w.updateSession (fun s => { s with arena := arena }) i) r =
            w.arenaOf r := by simp [arenaOf,hget,Ne.symm hri]
        simp only [listed,entriesOf,hr,hr',hsame]

theorem Legible.filed (hw : Legible w) (hr : w.registries[id]? = some r)
    (hs : w.sessions[r.session]? = some s) (ha : s.arena.inner = some a) (hold : a.Holds es)
    (hfiled : ∀ (j : Nat) (q : Registry), w.registries[j]? = some q →
      q.session = r.session → ∃ ds, Filed es q.entries ds)
    {e : Entry} {d : ToolDescriptor} (he : Recalls es e d)
    (hnew : d.name ∉ (w.listed id).map ToolDescriptor.name) :
    Legible (w.updateRegistry (fun r => { r with entries := r.entries ++ [e] }) id) ∧
      (w.updateRegistry (fun r => { r with entries := r.entries ++ [e] }) id).listed id =
        w.listed id ++ [d] ∧
      ∀ k ≠ id, (w.updateRegistry (fun r => { r with entries := r.entries ++ [e] }) id).listed k =
        w.listed k := by
  have hget (k : Nat) :
      (w.updateRegistry (fun r => { r with entries := r.entries ++ [e] }) id).registries[k]? =
        w.registries[k]?.map fun r =>
          if id = k then { r with entries := r.entries ++ [e] } else r :=
    getElem?_modify_map _ id w.registries k
  have hcases (j : Nat) (q : Registry) (hq : (w.updateRegistry (fun r =>
      { r with entries := r.entries ++ [e] }) id).registries[j]? = some q) :
      id = j ∧ q = { r with entries := r.entries ++ [e] } ∨ w.registries[j]? = some q := by
    rw [hget] at hq
    by_cases hj : id = j
    · subst hj
      exact .inl ⟨rfl,by simpa [hr] using hq.symm⟩
    · exact .inr (by simpa [hj] using hq)
  obtain ⟨ds,hds⟩ := hfiled id r hr rfl
  have hlist : w.listed id = ds := (listed_eq hr hs).trans (hds.listed ha hold)
  have hmore : Filed es (r.entries ++ [e]) (ds ++ [d]) := hds.concat he (hlist ▸ hnew)
  refine ⟨?_,?_,?_⟩
  · intro k s' hs'
    by_cases hk : k = r.session
    · subst hk
      obtain rfl := Option.some.inj (hs.symm.trans hs')
      refine .there a es ha hold ?_
      intro j q hq hqk
      rcases hcases j q hq with ⟨rfl,rfl⟩ | hq
      · exact ⟨_,hmore⟩
      · exact hfiled j q hq hqk
    · refine (hw k s' hs').of_registries ?_
      intro j q hq hqk
      rcases hcases j q hq with ⟨rfl,rfl⟩ | hq
      · exact absurd hqk.symm hk
      · exact .inr ⟨q,hq,hqk,rfl⟩
  · have hr' : (w.updateRegistry (fun r =>
        { r with entries := r.entries ++ [e] }) id).registries[id]? =
        some { r with entries := r.entries ++ [e] } := by simp [hget,hr]
    rw [listed_eq hr' hs,hmore.listed ha hold,hlist]
  · intro k hk
    simp only [listed,entriesOf,hget]
    cases w.registries[k]? with
    | none => rfl
    | some q =>
      simp only [Option.map_some,if_neg (Ne.symm hk)]
      rfl

def isSchema : Json → Bool
  | .null | .object _ => true
  | _ => false

def parametersOf : Json → String
  | .null => emptySchemaText
  | schema => schema.text

def described (tool : Tool) : ToolDescriptor :=
  ⟨tool.name, tool.description, parametersOf tool.schema, tool⟩

def notASchema (tool : Tool) : Error :=
  .invalidArgument
    ("tool '" ++ tool.name ++ "' schema must be a JSON object, got " ++ tool.schema.text)

theorem schemaText_eq (tool : Tool) : schemaText tool.name tool.schema =
    if isSchema tool.schema then .ok (parametersOf tool.schema) else .error (notASchema tool) := by
  unfold notASchema
  cases tool.schema <;> rfl

/-- A tool is added to a list unless its name is there already. Its texts may be refused, and then
the list may have no room for one more. -/
def enlist (refused? : List String → Option String) (room : Nat → Bool) (tool : Tool)
    (l : List ToolDescriptor) : Except Error (List ToolDescriptor) :=
  if tool.name.isEmpty then .error (.invalidArgument "tool name must not be empty")
  else if isSchema tool.schema = false then .error (notASchema tool)
  else if tool.name ∈ l.map ToolDescriptor.name then .ok l
  else match refused? [tool.name, tool.description, parametersOf tool.schema] with
    | some text => .error (outOfRoom text)
    | none => if room l.length then .ok (l ++ [described tool]) else .error tableFull

def Enlisted (id : Nat) (w : World) (outcome : Except Error Unit) (w' : World) :
    Except Error (List ToolDescriptor) → Prop
  | .error e => outcome = .error e ∧ ∀ k, w'.listed k = w.listed k
  | .ok l => outcome = .ok () ∧ w'.listed id = l ∧ ∀ k ≠ id, w'.listed k = w.listed k

theorem live?_there {arena : SharedArena} (h : w.live? id = .ok (r, arena)) :
    w.registries[id]? = some r ∧
      (∃ s : Session, w.sessions[r.session]? = some s ∧ s.arena = arena) ∧
      arena.isDestroyed = false := by
  obtain ⟨hr,s,hs,rfl⟩ := live?_ok h
  refine ⟨hr,⟨s,hs,rfl⟩,?_⟩
  have harena : w.arenaOf r = some s.arena := by simp [arenaOf,hs]
  simp only [live?,hr,harena] at h
  split at h
  · contradiction
  · rename_i hnot
    simp only [Bool.or_eq_true,not_or,Bool.not_eq_true] at hnot
    exact hnot.2

theorem Legible.described (hw : Legible w) {id : Nat} (hmade : ∀ r : Registry,
    w.registries[id]? = some r → r.session < w.sessions.length) :
    List.Forall₂ (fun e d => describe (w.entriesOf id).2 e = some d) (w.entriesOf id).1
        (w.listed id) ∧ ((w.listed id).map ToolDescriptor.name).Nodup := by
  cases hr : w.registries[id]? with
  | none => simp [entriesOf,listed,hr]
  | some r =>
    obtain ⟨s,hs⟩ : ∃ s, w.sessions[r.session]? = some s :=
      ⟨_,List.getElem?_eq_getElem (hmade r hr)⟩
    have hentries : w.entriesOf id = (r.entries, s.arena) := by simp [entriesOf,arenaOf,hr,hs]
    rw [listed_eq hr hs,hentries]
    cases hw _ _ hs with
    | there a es ha hold hfiled =>
      obtain ⟨ds,hds⟩ := hfiled id r hr rfl
      rw [hds.listed ha hold]
      exact ⟨hds.described ha hold,hds.distinct⟩
    | gone _ hempty => simp [hempty id r hr rfl]

theorem Legible.live_described (hw : Legible w) {arena : SharedArena}
    (hlive : w.live? id = .ok (r, arena)) :
    List.Forall₂ (fun e d => describe arena e = some d) r.entries (w.listed id) := by
  obtain ⟨hr,⟨s,hs,rfl⟩,-⟩ := live?_there hlive
  have hmade (q : Registry) (hq : w.registries[id]? = some q) : q.session < w.sessions.length := by
    obtain rfl := Option.some.inj (hr.symm.trans hq)
    exact (List.getElem?_eq_some_iff.mp hs).1
  simpa [entriesOf,arenaOf,hr,hs] using (hw.described hmade).1

theorem Legible.any_named (hw : Legible w) {arena : SharedArena}
    (hlive : w.live? id = .ok (r, arena)) (name : String) : r.entries.any (isNamed arena name) =
      decide (name ∈ (w.listed id).map ToolDescriptor.name) :=
  any_isNamed (hw.live_described hlive) name

/-- Adding a tool to a registry is adding it to the list of the registry. -/
theorem addTool_enlists (hw : Legible w) {arena : SharedArena} (hlive : w.live? id = .ok (r, arena))
    (tool : Tool) : Legible (w.addTool id tool).2 ∧
      Enlisted id w (w.addTool id tool).1 (w.addTool id tool).2
        (enlist (arena.refused? w.host) (w.room .table) tool (w.listed id)) := by
  have hany := hw.any_named hlive tool.name
  have hlength := (hw.live_described hlive).length_eq
  obtain ⟨hr,⟨s,hs,rfl⟩,hthere⟩ := live?_there hlive
  cases hw _ s hs with
  | gone hn => simp [SharedArena.isDestroyed,hn] at hthere
  | there a es ha hold hfiled =>
  have same (outcome : Except Error Unit) (e : Error) (h : outcome = .error e) :
      Legible w ∧ Enlisted id w outcome w (.error e) := ⟨hw,h,fun _ => rfl⟩
  unfold addTool enlist
  simp only [hlive,hany,schemaText_eq]
  split
  · exact same _ _ rfl
  cases hschema : isSchema tool.schema with
  | false => exact same _ _ rfl
  | true =>
  simp only [if_true,Bool.true_eq_false,if_false]
  by_cases hname : tool.name ∈ (w.listed id).map ToolDescriptor.name
  · simp only [hname,decide_true,if_true]
    exact ⟨hw,rfl,rfl,fun _ _ => rfl⟩
  simp only [hname,decide_false,Bool.false_eq_true,if_false]
  obtain ⟨new,a',ha',hold',hnew,hcopy⟩ :=
    copyEntry_spec ha hold w.host tool (parametersOf tool.schema)
  obtain ⟨hgrown,hsame⟩ := hw.grown hs ha hold hfiled ha' hold' hnew
  cases hrefused : s.arena.refused? w.host
      [tool.name, tool.description, parametersOf tool.schema] with
  | some text =>
    rw [hrefused] at hcopy
    rw [hcopy]
    exact ⟨hgrown,rfl,hsame⟩
  | none =>
    rw [hrefused] at hcopy
    obtain ⟨e,he,hrecalls⟩ := hcopy
    rw [he]
    have hs' : (w.updateSession (fun s' => { s' with
        arena := (copyEntry w.host tool (parametersOf tool.schema) s.arena).2 })
        r.session).sessions[r.session]? =
        some { s with arena := (copyEntry w.host tool (parametersOf tool.schema) s.arena).2 } := by
      simp [updateSession,hs]
    dsimp only
    rw [show (w.updateSession _ r.session).room = w.room from rfl,hlength]
    split
    swap
    · exact ⟨hgrown,rfl,hsame⟩
    obtain ⟨hmore,hid,hothers⟩ := hgrown.filed (w := w.updateSession _ r.session) hr hs' ha' hold'
      (fun j q hq hqs => (hfiled j q hq hqs).imp fun _ h => h.later hnew) hrecalls
      (hsame id ▸ hname)
    exact ⟨hmore,rfl,hid.trans (by rw [hsame]; rfl),fun k hk => (hothers k hk).trans (hsame k)⟩

end Adding

section Steps

theorem legible_closing : Closing fun _ w w' => Legible w → Legible w' where
  refl _ _ := id
  trans h hn := fun hw => hn (h hw)
  client _ _ _ _ := fun hw => hw.of_arenas rfl rfl
  whole := by
    intro busy w i s w' _ _ _ hripe h hw
    have hw' := h (hw.of_arenas (map_modify_of_eq fun _ _ => rfl) rfl)
    intro k s' hs'
    rw [sessions_publish,getElem?_sessions_tearDown] at hs'
    obtain ⟨s₀,hs₀,rfl⟩ := Option.map_eq_some_iff.mp hs'
    have hget (j : Nat) (r' : Registry)
        (hr' : ((tearDown s i w').publish s.bus (closedEvent s w'.now)).registries[j]? = some r') :
        ∃ r, w'.registries[j]? = some r ∧ r'.session = r.session ∧
          if r.session = i then r'.entries = [] else r' = r := by
      rw [registries_publish,getElem?_registries_tearDown] at hr'
      obtain ⟨r,hr,rfl⟩ := Option.map_eq_some_iff.mp hr'
      have hiff := hripe.registries j r hr
      refine ⟨r,hr,?_,?_⟩
      · split <;> rfl
      · by_cases hj : j ∈ s.registries
        · simp [hj,hiff.mpr hj]
        · simp [hj,mt hiff.mp hj]
    by_cases hik : i = k
    · refine .gone (by rw [if_pos hik]; rfl) ?_
      intro j r' hr' hrk
      obtain ⟨r,-,hsession,hentries⟩ := hget j r' hr'
      rwa [if_pos (by rw [← hsession,hrk,hik])] at hentries
    · rw [if_neg hik]
      refine (hw' k s₀ hs₀).of_registries ?_
      intro j r' hr' hrk
      obtain ⟨r,hr,hsession,hentries⟩ := hget j r' hr'
      rw [if_neg fun hri => hik (hri.symm.trans (hsession.symm.trans hrk))] at hentries
      subst hentries
      exact .inr ⟨r',hr,hrk,rfl⟩

theorem createAgent_cases (w : World) (session : Nat) (o : AgentOptions) (route : Route) :
    (w.createAgent session o route).2 = w ∨ ∃ a : Agent, (w.createAgent session o route).2 =
      World.updateSession (fun s => { s with agents := track w.agents.length s.agents }) session
        { w with agents := w.agents ++ [a] } := by
  unfold createAgent
  split
  · exact .inl rfl
  split
  · exact .inl rfl
  split
  · exact .inl rfl
  split
  · exact .inl rfl
  dsimp only
  split
  · exact .inl rfl
  · rename_i h
    exact .inr ⟨_,(trackAgent_ok h).2.2⟩

theorem createRegistry_cases (w : World) (session : Nat) :
    (∃ e, w.createRegistry session = (.error e, w)) ∨
      w.createRegistry session = (.ok w.registries.length, World.updateSession
        (fun s => { s with registries := track w.registries.length s.registries }) session
          { w with registries := w.registries ++ [⟨session, [], false⟩] }) := by
  unfold createRegistry
  split
  · exact .inl ⟨_,rfl⟩
  dsimp only
  split
  · exact .inl ⟨_,rfl⟩
  · rename_i h
    exact .inr (by rw [(trackRegistry_ok h).2.2])

theorem openSession_legible (ho : Orderly [] w) (hw : Legible w) (label : String) (config : Config)
    (bus : Option Nat) : Legible (w.openSession label config bus).2 := by
  unfold openSession
  split
  · exact hw
  rename_i arena harena
  obtain ⟨a,ha,rfl⟩ := Option.map_eq_some_iff.mp harena
  intro i s hs
  rcases getElem?_concat_cases hs with hs | ⟨rfl,rfl⟩
  · exact hw i s hs
  · refine .there a [] rfl (Arena.Holds.create ha).2 ?_
    intro j r hr hi
    have hlt := ho.registries.owned j r hr
    omega

theorem createRegistry_legible (hw : Legible w) (session : Nat) :
    Legible (w.createRegistry session).2 := by
  rcases w.createRegistry_cases session with ⟨e,h⟩ | h <;> rw [h]
  · exact hw
  intro i s' hs'
  have hmap : (w.sessions.modify session fun s =>
      { s with registries := track w.registries.length s.registries }).map Session.arena =
      w.sessions.map Session.arena := map_modify_of_eq fun _ _ => rfl
  obtain ⟨s,hs,heq⟩ := getElem?_of_map_eq hmap hs'
  rw [← heq]
  refine (hw i s hs).of_registries ?_
  intro j r hr hi
  rcases getElem?_concat_cases hr with hr | ⟨-,rfl⟩
  · exact .inr ⟨r,hr,hi,rfl⟩
  · exact .inl rfl

theorem addTool_legible (hw : Legible w) (id : Nat) (tool : Tool) :
    Legible (w.addTool id tool).2 := by
  cases hlive : w.live? id with
  | error e => simpa only [addTool,hlive] using hw
  | ok live => exact (addTool_enlists hw hlive tool).1

theorem step_legible (h : Step w w') (ho : Orderly [] w) (hw : Legible w) : Legible w' := by
  cases h with
  | openSession label config bus => exact openSession_legible ho hw label config bus
  | createRegistry session => exact createRegistry_legible hw session
  | createAgent session o route made =>
    rcases w.createAgent_cases session o route with h | ⟨a,h⟩ <;>
      rw [h]
    · exact hw
    · exact hw.of_arenas (map_modify_of_eq fun _ _ => rfl) rfl
  | addTool registry tool => exact addTool_legible hw registry tool
  | trackAgent session agent made h =>
    rw [(trackAgent_ok h).2.2]
    exact hw.of_arenas (map_modify_of_eq fun _ _ => rfl) rfl
  | trackRegistry session registry made h =>
    rw [(trackRegistry_ok h).2.2]
    exact hw.of_arenas (map_modify_of_eq fun _ _ => rfl) rfl
  | trackClient session client h =>
    rw [(trackClient_ok h).2]
    exact hw.of_arenas (map_modify_of_eq fun _ _ => rfl) rfl
  | close session => exact legible_closing.close ho session hw
  | count agent n => exact hw.of_arenas rfl rfl
  | elsewhere sessions agents registries arenas =>
    exact hw.of_arenas (by rw [sessions]) registries

end Steps

end World
end ReasonAct

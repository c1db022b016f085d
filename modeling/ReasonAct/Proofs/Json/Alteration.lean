import Mathlib.Data.List.Forall2
import Mathlib.Data.List.Perm.Basic
import ReasonAct.Json.Record
import ReasonAct.Proofs.Json.Written
/-!
What may be altered in the text of a record without a change of what is read. Fields change places,
fields that are not known are added, and a field is left out that holds what its absence stands for;
the values of the fields are altered in their turn.
-/
set_option autoImplicit false

namespace ReasonAct.Json

abbrev Alteration := Source → Source → Prop

/-- A field as it is declared: its name, what may be altered in its value, and the value it may be
left out with. -/
structure Field where
  name : String
  value : Alteration
  default? : Option Source

namespace Field

abbrev plain (name : String) : Field := ⟨name, Eq, none⟩

abbrev holding (name : String) (value : Alteration) : Field := ⟨name, value, none⟩

abbrev defaulting (name : String) (default : Source) : Field := ⟨name, Eq, some default⟩

def names (fields : List Field) : List String := fields.map name

end Field

namespace Source

/-- The fields that are written, in the order of their declaration, and what is kept of them. -/
inductive Kept : List Field → List (String × Source) → List (String × Source) → Prop
  | nil : Kept [] [] []
  | keep {f : Field} {fields : List Field} {v v' : Source} {fs fs' : List (String × Source)}
      (value : f.value v v') (rest : Kept fields fs fs') :
      Kept (f :: fields) ((f.name, v) :: fs) ((f.name, v') :: fs')
  | leave {f : Field} {fields : List Field} {v : Source} {fs fs' : List (String × Source)}
      (default : f.default? = some v) (rest : Kept fields fs fs') :
      Kept (f :: fields) ((f.name, v) :: fs) fs'
  | absent {f : Field} {fields : List Field} {fs fs' : List (String × Source)}
      (rest : Kept fields fs fs') : Kept (f :: fields) fs fs'

/-- A record as it is written, and altered. -/
inductive Recast (fields : List Field) : Alteration
  | intro {fs kept unknown fs' : List (String × Source)} (keeps : Kept fields fs kept)
      (strange : ∀ f ∈ unknown, f.1 ∉ Field.names fields) (order : fs'.Perm (kept ++ unknown)) :
      Recast fields (.object fs) (.object fs')

inductive Retagged (fields : String → List Field) : Alteration
  | intro {kind : String} {fs kept unknown fs' : List (String × Source)}
      (keeps : Kept (fields kind) fs kept)
      (strange : ∀ f ∈ unknown, f.1 ∉ "type" :: Field.names (fields kind))
      (order : fs'.Perm (("type", .string kind) :: (kept ++ unknown))) :
      Retagged fields (.object (("type", .string kind) :: fs)) (.object fs')

inductive Rewrapped (fields : String → List Field) : Alteration
  | intro {kind : String} {s s' : Source} (inner : Recast (fields kind) s s') :
      Rewrapped fields (.object [(kind, s)]) (.object [(kind, s')])

inductive Each (item : Alteration) : Alteration
  | intro {xs xs' : List Source} (items : List.Forall₂ item xs xs') :
      Each item (.array xs) (.array xs')

/-- A reader gives the same for what is written and for what is altered. -/
def Respects {α : Type} (alteration : Alteration) (read : Source → Option α) : Prop :=
  ∀ s s', s.Readable → s'.Readable → alteration s s' → read s' = read s

theorem lookup_eq_some_of_nodup {fs : List (String × Source)} (h : (fs.map Prod.fst).Nodup)
    {k : String} {v : Source} : fs.lookup k = some v ↔ (k,v) ∈ fs := by
  induction fs with
  | nil => simp
  | cons f fs ih =>
    obtain ⟨n,w⟩ := f
    obtain ⟨hfirst,hrest⟩ := List.nodup_cons.mp h
    by_cases hk : k = n
    · subst hk
      have hnot : (k,v) ∉ fs := fun hmem => hfirst (List.mem_map.mpr ⟨_,hmem,rfl⟩)
      simp [List.lookup_cons_self,hnot,eq_comm]
    · rw [List.lookup_cons,beq_eq_false_iff_ne.mpr hk]
      simp [ih hrest,hk]

theorem lookup_perm {fs fs' : List (String × Source)} (h : fs.Perm fs')
    (hnodup : (fs.map Prod.fst).Nodup) (k : String) : fs.lookup k = fs'.lookup k := by
  have hnodup' : (fs'.map Prod.fst).Nodup := (h.map Prod.fst).nodup_iff.mp hnodup
  ext v
  rw [lookup_eq_some_of_nodup hnodup,lookup_eq_some_of_nodup hnodup',h.mem_iff]

namespace Kept

variable {fields : List Field} {fs fs' : List (String × Source)}

theorem written (h : Kept fields fs fs') : (fs.map Prod.fst).Sublist (Field.names fields) := by
  induction h with
  | nil => exact .slnil
  | keep _ _ ih => exact ih.cons_cons _
  | leave _ _ ih => exact ih.cons_cons _
  | absent _ ih => exact ih.cons _

theorem left (h : Kept fields fs fs') : (fs'.map Prod.fst).Sublist (Field.names fields) := by
  induction h with
  | nil => exact .slnil
  | keep _ _ ih => exact ih.cons_cons _
  | leave _ _ ih => exact ih.cons _
  | absent _ ih => exact ih.cons _

end Kept

inductive Sees (f : Field) : Option Source → Option Source → Prop
  | kept {v v' : Source} (value : f.value v v') : Sees f (some v) (some v')
  | left {v : Source} (default : f.default? = some v) : Sees f (some v) none
  | absent : Sees f none none

theorem lookup_eq_none_of_names {fields : List Field} {fs : List (String × Source)} {k : String}
    (h : (fs.map Prod.fst).Sublist (Field.names fields)) (hk : k ∉ Field.names fields) :
    fs.lookup k = none := by
  rw [List.lookup_eq_none_iff]
  intro f hf
  have hmem : f.1 ∈ Field.names fields := h.subset (List.mem_map_of_mem hf)
  simpa using fun he : k = f.1 => hk (he ▸ hmem)

theorem Kept.sees {fields : List Field} {fs fs' : List (String × Source)}
    (h : Kept fields fs fs') (hnodup : (Field.names fields).Nodup) {f : Field} (hf : f ∈ fields) :
    Sees f (fs.lookup f.name) (fs'.lookup f.name) := by
  induction h with
  | nil => simp at hf
  | @keep g fields v v' fs fs' value rest ih =>
    obtain ⟨hfirst,hrest⟩ := List.nodup_cons.mp hnodup
    rcases List.mem_cons.mp hf with rfl | hf
    · simpa using Sees.kept value
    · have hne : (f.name == g.name) = false :=
        beq_eq_false_iff_ne.mpr fun he => hfirst (he ▸ List.mem_map_of_mem hf)
      simpa only [List.lookup_cons,hne] using ih hrest hf
  | @leave g fields v fs fs' default rest ih =>
    obtain ⟨hfirst,hrest⟩ := List.nodup_cons.mp hnodup
    rcases List.mem_cons.mp hf with rfl | hf
    · simpa [lookup_eq_none_of_names rest.left hfirst] using Sees.left default
    · have hne : (f.name == g.name) = false :=
        beq_eq_false_iff_ne.mpr fun he => hfirst (he ▸ List.mem_map_of_mem hf)
      simpa only [List.lookup_cons,hne] using ih hrest hf
  | absent rest ih =>
    obtain ⟨hfirst,hrest⟩ := List.nodup_cons.mp hnodup
    rcases List.mem_cons.mp hf with rfl | hf
    · rw [lookup_eq_none_of_names rest.left hfirst,lookup_eq_none_of_names rest.written hfirst]
      exact .absent
    · exact ih hrest hf

structure Agree (fields : List Field) (r r' : Record) : Prop where
  byName : r.positional = false
  byName' : r'.positional = false
  sees : ∀ f ∈ fields, Sees f (r.get? f.name) (r'.get? f.name)
  readable : ∀ {name : String} {v : Source}, r.get? name = some v → v.Readable
  readable' : ∀ {name : String} {v : Source}, r'.get? name = some v → v.Readable

theorem record?_of_names {fields : List Field} {fs : List (String × Source)}
    (h : (fs.map Prod.fst).Sublist (Field.names fields)) (hnodup : (Field.names fields).Nodup) :
    (object fs).record? (Field.names fields) = some ⟨fs,false⟩ := by
  have hknown : fs.filter (·.1 ∈ Field.names fields) = fs :=
    List.filter_eq_self.mpr fun f hf => by simpa using h.subset (List.mem_map_of_mem hf)
  simp only [record?,hknown,h.nodup hnodup,if_true]

theorem readable_of_lookup {fs : List (String × Source)} (h : ∀ f ∈ fs, f.2.Readable)
    {k : String} {v : Source} (hv : fs.lookup k = some v) : v.Readable := by
  obtain ⟨before,after,rfl,_⟩ := List.lookup_eq_some_iff.mp hv
  exact h (k,v) (by simp)

/-- Both records are read, and agree. -/
theorem Recast.agree {fields : List Field} {s s' : Source} (h : Recast fields s s')
    (hnodup : (Field.names fields).Nodup) (hs : s.Readable) (hs' : s'.Readable) :
    ∃ r r', s.record? (Field.names fields) = some r ∧ s'.record? (Field.names fields) = some r' ∧
      Agree fields r r' := by
  obtain @⟨fs,kept,unknown,fs',keeps,strange,order⟩ := h
  rw [readable_object] at hs hs'
  have hkept : kept.filter (·.1 ∈ Field.names fields) = kept :=
    List.filter_eq_self.mpr fun f hf => by simpa using keeps.left.subset (List.mem_map_of_mem hf)
  have hunknown : unknown.filter (·.1 ∈ Field.names fields) = [] :=
    List.filter_eq_nil_iff.mpr fun f hf => by simpa using strange f hf
  have hknown : (fs'.filter (·.1 ∈ Field.names fields)).Perm kept := by
    simpa [hkept,hunknown] using order.filter (·.1 ∈ Field.names fields)
  have hleft : (kept.map Prod.fst).Nodup := keeps.left.nodup hnodup
  have hnames : ((fs'.filter (·.1 ∈ Field.names fields)).map Prod.fst).Nodup :=
    (hknown.map Prod.fst).nodup_iff.mpr hleft
  have hreadable : ∀ f ∈ fs'.filter (·.1 ∈ Field.names fields), f.2.Readable :=
    fun f hf => hs' f (List.mem_of_mem_filter hf)
  refine ⟨⟨fs,false⟩,⟨_,false⟩,record?_of_names keeps.written hnodup,if_pos hnames,
    { byName := rfl
      byName' := rfl
      sees := fun f hf => ?_
      readable := fun hv => readable_of_lookup hs hv
      readable' := fun hv => readable_of_lookup hreadable hv }⟩
  simpa [Record.get?,lookup_perm hknown hnames] using keeps.sees hnodup hf

theorem Recast.respects {α : Type} {fields : List Field} {names : List String}
    {k : Record → Option α} (hnames : Field.names fields = names) (hnodup : names.Nodup)
    (hk : ∀ r r', Agree fields r r' → k r' = k r) :
    Respects (Recast fields) fun s => (s.record? names).bind k := by
  subst hnames
  intro s s' hs hs' h
  obtain ⟨r,r',hr,hr',hagree⟩ := h.agree hnodup hs hs'
  simp [hr,hr',hk r r' hagree]

theorem respects_eq {α : Type} (read : Source → Option α) : Respects Eq read := by
  rintro s _ _ _ rfl
  rfl

theorem Each.respects {α : Type} {item : Alteration} {read : Source → Option α}
    (h : Respects item read) : Respects (Each item) (list? read) := by
  intro s s' hs hs' hitems
  obtain @⟨xs,xs',items⟩ := hitems
  rw [readable_array] at hs hs'
  simp only [list?]
  induction items with
  | nil => rfl
  | @cons x x' xs xs' hx _ ih =>
    rw [List.forall_mem_cons] at hs hs'
    rw [List.mapM_cons,List.mapM_cons,h x x' hs.1 hs'.1 hx,ih hs.2 hs'.2]

namespace Agree

variable {α : Type} {fields : List Field} {r r' : Record} {name : String} {value : Alteration}
  {read : Source → Option α}

@[elab_as_elim]
theorem field {motive : Option Source → Option Source → Prop} (h : Agree fields r r')
    {default? : Option Source} (hf : ⟨name,value,default?⟩ ∈ fields)
    (kept : ∀ v v', v.Readable → v'.Readable → value v v' → motive (some v) (some v'))
    (left : ∀ v, default? = some v → motive (some v) none) (absent : motive none none) :
    motive (r.get? name) (r'.get? name) := by
  have hsees := h.sees _ hf
  dsimp only at hsees
  generalize hv : r.get? name = v at hsees
  generalize hv' : r'.get? name = v' at hsees
  cases hsees with
  | kept hvalue => exact kept _ _ (h.readable hv) (h.readable' hv') hvalue
  | left hdefault => exact left _ hdefault
  | absent => exact absent

theorem required (h : Agree fields r r') (hread : Respects value read)
    (hf : ⟨name,value,none⟩ ∈ fields) : r'.required name read = r.required name read := by
  unfold Record.required
  exact h.field hf hread nofun rfl

theorem plain (h : Agree fields r r') (hf : ⟨name,Eq,none⟩ ∈ fields) :
    r'.required name read = r.required name read := h.required (respects_eq read) hf

theorem defaulted (h : Agree fields r r') (default? : Option Source)
    (hread : Respects value read) {a : α} (hdefault : ∀ v ∈ default?, read v = some a)
    (hf : ⟨name,value,default?⟩ ∈ fields) :
    r'.defaulted name a read = r.defaulted name a read := by
  unfold Record.defaulted
  exact h.field hf hread (fun v hv => (hdefault v hv).symm) rfl

theorem optional (h : Agree fields r r') (default? : Option Source)
    (hdefault : ∀ v ∈ default?, v = .null) (hf : ⟨name,Eq,default?⟩ ∈ fields) :
    r'.optional name read = r.optional name read := by
  unfold Record.optional
  refine h.field hf (fun v v' _ _ hv => ?_) (fun v hv => ?_) rfl
  · rw [hv]
  · rw [hdefault v hv]

theorem nullable (h : Agree fields r r') (default? : Option Source)
    (hdefault : ∀ v ∈ default?, v = .null) (hf : ⟨name,Eq,default?⟩ ∈ fields) :
    r'.nullable name read = r.nullable name read := by
  simp [Record.nullable,h.byName,h.byName',h.optional default? hdefault hf]

end Agree

theorem not_type_of_names {fields : List Field} (h : "type" ∉ Field.names fields)
    {fs : List (String × Source)} (hfs : (fs.map Prod.fst).Sublist (Field.names fields)) :
    ∀ f ∈ fs, f.1 ≠ "type" := fun _ hf he =>
  h (he ▸ hfs.subset (List.mem_map_of_mem hf))

theorem filter_type {fs : List (String × Source)} (h : ∀ f ∈ fs, f.1 ≠ "type") :
    fs.filter (·.1 = "type") = [] ∧ fs.filter (·.1 ≠ "type") = fs :=
  ⟨List.filter_eq_nil_iff.mpr fun f hf => by simpa using h f hf,
    List.filter_eq_self.mpr fun f hf => by simpa using h f hf⟩

theorem tagged?_of_perm {kind : String} {fs rest : List (String × Source)}
    (horder : fs.Perm (("type",.string kind) :: rest)) (hrest : ∀ f ∈ rest, f.1 ≠ "type")
    (hread : (object fs).Readable) :
    (object fs).tagged? = some (kind,.object (fs.filter (·.1 ≠ "type"))) := by
  have hkind : fs.filter (·.1 = "type") = [("type",.string kind)] := by
    have hperm := horder.filter (·.1 = "type")
    rw [List.filter_cons_of_pos (by simp),(filter_type hrest).1] at hperm
    exact List.perm_singleton.mp hperm
  have hvalue : (value? (.object fs)).isSome := hread
  simp only [tagged?,hkind,hvalue,if_true]

theorem tagged?_written {kind : String} {fs : List (String × Source)}
    (hfs : ∀ f ∈ fs, f.1 ≠ "type") (hread : (object (("type",.string kind) :: fs)).Readable) :
    (object (("type",.string kind) :: fs)).tagged? = some (kind,.object fs) := by
  rw [tagged?_of_perm (List.Perm.refl _) hfs hread,List.filter_cons_of_neg (by simp),
    (filter_type hfs).2]

/-- A written record and an altered one have one kind, and what is left without the kind is
altered in its turn. -/
theorem Retagged.tagged? {fields : String → List Field}
    (htype : ∀ kind, "type" ∉ Field.names (fields kind)) {s s' : Source} (hs : s.Readable)
    (hs' : s'.Readable) (h : Retagged fields s s') :
    ∃ kind t t', s.tagged? = some (kind,t) ∧ s'.tagged? = some (kind,t') ∧ t.Readable ∧
      t'.Readable ∧ Recast (fields kind) t t' := by
  obtain @⟨kind,fs,kept,unknown,fs',keeps,strange,order⟩ := h
  have hfs := not_type_of_names (htype kind) keeps.written
  have hrest : ∀ f ∈ kept ++ unknown, f.1 ≠ "type" := by
    intro f hf
    rcases List.mem_append.mp hf with hf | hf
    · exact not_type_of_names (htype kind) keeps.left f hf
    · exact fun he => strange f hf (by simp [he])
  have horder : (fs'.filter (·.1 ≠ "type")).Perm (kept ++ unknown) := by
    have hperm := order.filter (·.1 ≠ "type")
    rwa [List.filter_cons_of_neg (by simp),(filter_type hrest).2] at hperm
  refine ⟨kind,_,_,tagged?_written hfs hs,tagged?_of_perm order hrest hs',?_,?_,?_⟩
  · rw [readable_object] at hs ⊢
    exact (List.forall_mem_cons.mp hs).2
  · rw [readable_object] at hs' ⊢
    exact fun f hf => hs' f (List.mem_of_mem_filter hf)
  · exact .intro keeps (fun f hf he => strange f hf (by simp [he])) horder

theorem Retagged.respects {α : Type} {fields : String → List Field}
    {read : String → Source → Option α} (htype : ∀ kind, "type" ∉ Field.names (fields kind))
    (h : ∀ kind, Respects (Recast (fields kind)) (read kind)) :
    Respects (Retagged fields) fun s => s.tagged?.bind fun t => read t.1 t.2 := by
  intro s s' hs hs' hretagged
  obtain ⟨kind,t,t',ht,ht',hread,hread',hrecast⟩ := hretagged.tagged? htype hs hs'
  simp [ht,ht',h kind t t' hread hread' hrecast]

theorem Rewrapped.respects {α : Type} {fields : String → List Field}
    {read : String → Source → Option α} {whole : Source → Option α}
    (hwhole : ∀ kind s, whole (.object [(kind,s)]) = read kind s)
    (h : ∀ kind, Respects (Recast (fields kind)) (read kind)) :
    Respects (Rewrapped fields) whole := by
  intro s s' hs hs' hrewrapped
  obtain @⟨kind,t,t',inner⟩ := hrewrapped
  rw [readable_object] at hs hs'
  rw [hwhole,hwhole]
  exact h kind t t' (hs (kind,t) (by simp)) (hs' (kind,t') (by simp)) inner

theorem Kept.given {α : Type} {fields : List Field} {fs : List (String × Source)} {name : String}
    {write : α → Source} {default? : Option Source} (o : Option α) (rest : Kept fields fs fs) :
    Kept (⟨name,Eq,default?⟩ :: fields) (given name write o ++ fs) (given name write o ++ fs) := by
  cases o with
  | none => exact .absent rest
  | some x => exact .keep rfl rest

theorem Kept.given_last {α : Type} {name : String} {write : α → Source} {default? : Option Source}
    (o : Option α) :
    Kept [⟨name,Eq,default?⟩] (Json.given name write o) (Json.given name write o) := by
  simpa using Kept.given o .nil

theorem Each.same {α : Type} {write : α → Source} {item : Alteration} {xs : List α}
    (h : ∀ x ∈ xs, item (write x) (write x)) :
    Each item (.array (xs.map write)) (.array (xs.map write)) :=
  .intro (List.forall₂_same.mpr (List.forall_mem_map.mpr h))

theorem Kept.listed {α : Type} {fields : List Field} {fs : List (String × Source)} {name : String}
    {write : α → Source} {item : Alteration} (xs : List α) (h : ∀ x ∈ xs, item (write x) (write x))
    (rest : Kept fields fs fs) :
    Kept (⟨name,Each item,none⟩ :: fields) (listed name write xs ++ fs)
      (listed name write xs ++ fs) := by
  cases xs with
  | nil => exact .absent rest
  | cons x xs => exact .keep (Each.same h) rest

theorem Recast.refl {fields : List Field} {fs : List (String × Source)} (h : Kept fields fs fs) :
    Recast fields (.object fs) (.object fs) := by
  have hstrange : ∀ f ∈ ([] : List (String × Source)), f.1 ∉ Field.names fields := by simp
  exact .intro h hstrange (by simp)

theorem Recast.written {fields : List Field} {names : List String} {fs : List (String × Source)}
    (h : Recast fields (.object fs) (.object fs)) (hnames : Field.names fields = names)
    (hnodup : names.Nodup) : ∃ r, (object fs).record? names = some r ∧
      ∀ name, r.get? name = fs.lookup name := by
  subst hnames
  cases h with
  | intro keeps => exact ⟨_,record?_of_names keeps.written hnodup,fun _ => rfl⟩

theorem Retagged.refl {fields : String → List Field} {kind : String} {fs : List (String × Source)}
    (h : Kept (fields kind) fs fs) : Retagged fields (.object (("type",.string kind) :: fs))
      (.object (("type",.string kind) :: fs)) := by
  have hstrange : ∀ f ∈ ([] : List (String × Source)),
      f.1 ∉ "type" :: Field.names (fields kind) := by simp
  exact .intro h hstrange (by simp)

end Source
end ReasonAct.Json

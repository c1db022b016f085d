import ReasonAct.Proofs.Json.Meaning
import ReasonAct.Proofs.Text.Blank
import ReasonAct.Tool.Builtin
set_option autoImplicit false

namespace ReasonAct

namespace Json

variable {n : Nat} {t : String} {v : Json}

theorem IsJson.nested (h : IsJson n t v) : v.source.Nested n :=
  have ⟨_,_,hnested,hmeans⟩ := h
  hmeans.nested hnested

theorem IsJson.sorted (h : IsJson n t v) : v.Sorted :=
  have ⟨_,_,_,hmeans⟩ := h
  hmeans.sorted

theorem Spells.solid {cs : List Char} {t : Token} (h : Spells cs t) :
    ∃ c ∈ cs, Text.isBlank c = false := by
  cases h with
  | openArray | closeArray | openObject | closeObject | comma | colon | text | null | truth | falsity =>
    exact ⟨_,List.mem_cons_self,rfl⟩
  | number spelling _ =>
    obtain ⟨c,rest,rfl,hc,-⟩ :=
      Numeral.isNumeral_of_ofChars? (Numeral.ofChars?_eq_some_iff.mpr spelling)
    refine ⟨c,List.mem_cons_self,?_⟩
    rcases Bool.or_eq_true_iff.mp hc with hdigit | hminus
    · exact Text.isBlank_of_isDigit hdigit
    · obtain rfl : c = '-' := by simpa using hminus
      rfl

theorem Lexed.solid {cs : List Char} {ts : List Token} (h : Lexed cs ts) (hts : ts ≠ []) :
    ∃ c ∈ cs, Text.isBlank c = false := by
  induction h with
  | nil => contradiction
  | space _ _ ih =>
    obtain ⟨c,hc,hsolid⟩ := ih hts
    exact ⟨c,List.mem_cons_of_mem _ hc,hsolid⟩
  | token first _ _ =>
    obtain ⟨c,hc,hsolid⟩ := first.solid
    exact ⟨c,List.mem_append_left _ hc,hsolid⟩

theorem Source.Nested.tokens_ne_nil {s : Source} (h : s.Nested n) : s.tokens ≠ [] := by
  cases h with
  | null | bool | number | string => simp [tokens]
  | array _ => simp [tokens_array]
  | object _ => simp [tokens_object]

theorem IsJson.not_blank (h : IsJson n t v) : Text.blank t = false := by
  obtain ⟨s,hlexed,hnested,-⟩ := h
  obtain ⟨c,hc,hsolid⟩ := hlexed.solid hnested.tokens_ne_nil
  rw [Text.blank,List.all_eq_false]
  exact ⟨c,hc,by simp [hsolid]⟩

end Json

open Json

theorem parseArguments_blank {t : String} (h : ∀ c ∈ t.toList, Text.isBlank c = true) :
    parseArguments t = .ok (.object []) := by
  have hblank : Text.blank t = true := List.all_eq_true.mpr h
  rw [parseArguments,if_pos hblank]

theorem parseArguments_isJson {t : String} {v : Json} (h : IsJson nestingLimit t v) :
    parseArguments t = .ok v := by
  simp only [parseArguments,h.not_blank,Bool.false_eq_true,if_false,parse?_eq_some_iff.mpr h]

theorem parseArguments_refused {t : String} {c : Char} (hc : c ∈ t.toList)
    (hsolid : Text.isBlank c = false) (h : ∀ v, ¬ IsJson nestingLimit t v) :
    ∃ reason, parseArguments t = .error (.invalidArguments reason) := by
  have hblank : Text.blank t = false := List.all_eq_false.mpr ⟨c,hc,by simp [hsolid]⟩
  have hparse : parse? t = none :=
    Option.eq_none_iff_forall_ne_some.mpr fun v hv => h v (parse?_eq_some_iff.mp hv)
  refine ⟨"arguments are not valid JSON: <detail>",?_⟩
  simp only [parseArguments,hblank,hparse,Bool.false_eq_true,if_false]

theorem parseArguments_eq_ok {t : String} {v : Json} (h : parseArguments t = .ok v) :
    v = .object [] ∨ IsJson nestingLimit t v := by
  unfold parseArguments at h
  split at h
  · exact .inl (Except.ok.inj h).symm
  split at h
  · cases h
    exact .inr (parse?_eq_some_iff.mp ‹_›)
  · contradiction

namespace Builtin

theorem wrap_eq (v : Json) : wrap v = (Json.object [("echo",v)]).text := rfl

theorem wrap_text (v : Json) : wrap v = "\x7b\"echo\":" ++ v.text ++ "\x7d" := by
  rw [← String.toList_inj]
  have hkey : Source.quoted "echo" = ['"', 'e', 'c', 'h', 'o', '"'] := by decide +kernel
  simp [wrap_eq,Json.text,Source.text,source,sourceMembers,Source.chars,Source.charsFields,hkey]

theorem parse?_wrap {v : Json} (hsorted : v.Sorted) (hwithin : v.source.Within 126) :
    parse? (wrap v) = some (.object [("echo",v)]) := by
  have hobject : Json.Sorted (.object [("echo",v)]) :=
    .of_names (List.pairwise_singleton _ _) (by simpa using hsorted)
  rw [wrap_eq]
  refine hobject.parse?_text ?_
  rw [source,sourceMembers_eq]
  exact .object (by simpa using hwithin)

theorem execute_echo (files : FileTree) (now : Instant) (ctx : ToolContext) (t : String) :
    execute files now ctx t .echo = (parseArguments t).map wrap := by
  show (parseArguments t).bind _ = _
  cases parseArguments t <;> rfl

/-- A blank text stands for no arguments. JSON whose value nests at most 126 levels is given back as
its value, and other texts are refused. Texts with one value have one output, and the output is given
back as it is. -/
theorem echo_faithful (files : FileTree) (now : Instant) (ctx : ToolContext) :
    (∀ t, (∀ c ∈ t.toList, Text.isBlank c = true) → parseArguments t = .ok (.object [])) ∧
    (∀ t v, IsJson nestingLimit t v → v.source.Nested 126 → Faithful v →
      ∃ output, execute files now ctx t .echo = .ok output ∧
        parse? output = some (.object [("echo",v)])) ∧
    (∀ t, (∃ c ∈ t.toList, Text.isBlank c = false) → (∀ v, ¬ IsJson nestingLimit t v) →
      ∃ reason, parseArguments t = .error (.invalidArguments reason) ∧
        execute files now ctx t .echo = .error (.invalidArguments reason)) ∧
    (∀ t t' v, IsJson nestingLimit t v → IsJson nestingLimit t' v →
      ∃ output, execute files now ctx t .echo = .ok output ∧
        execute files now ctx t' .echo = .ok output) ∧
    ∀ t v output, parseArguments t = .ok v → v.source.Nested 126 → Faithful v →
      execute files now ctx t .echo = .ok output →
        execute files now ctx output .echo = .ok ("\x7b\"echo\":" ++ output ++ "\x7d") := by
  simp only [execute_echo]
  refine ⟨fun t => parseArguments_blank,?_,?_,?_,?_⟩
  · intro t v hjson hnested hfaithful
    rw [parseArguments_isJson hjson]
    exact ⟨wrap v,rfl,parse?_wrap hjson.sorted (hfaithful.within hnested)⟩
  · rintro t ⟨c,hc,hsolid⟩ hnone
    obtain ⟨reason,hreason⟩ := parseArguments_refused hc hsolid hnone
    rw [hreason]
    exact ⟨reason,rfl,rfl⟩
  · intro t t' v hjson hjson'
    rw [parseArguments_isJson hjson,parseArguments_isJson hjson']
    exact ⟨wrap v,rfl,rfl⟩
  · intro t v output hargs hnested hfaithful houtput
    rw [hargs] at houtput
    obtain rfl := Except.ok.inj houtput
    have hsorted : v.Sorted := by
      rcases parseArguments_eq_ok hargs with rfl | hjson
      · exact .object List.Pairwise.nil (by simp)
      · exact hjson.sorted
    have hparse := parse?_wrap hsorted (hfaithful.within hnested)
    rw [parseArguments_isJson (parse?_eq_some_iff.mp hparse)]
    exact congrArg Except.ok (wrap_text (.object [("echo",v)]))

def strings? (j : Json) : Option (List (String × String)) :=
  j.object?.bind (List.mapM fun m => m.2.string?.map (m.1,·))

theorem strings?_eq_some {j : Json} {fs : List (String × String)} (h : strings? j = some fs) :
    j = .object (fs.map fun f => (f.1,.string f.2)) := by
  obtain ⟨ms,hms,hfs⟩ := Option.bind_eq_some_iff.mp h
  obtain rfl : j = .object ms := by cases j <;> simp_all [object?]
  refine congrArg Json.object ?_
  clear h hms
  induction ms generalizing fs with
  | nil => cases hfs; rfl
  | cons m ms ih =>
    rw [List.mapM_cons] at hfs
    obtain ⟨f,hf,hfs⟩ := Option.bind_eq_some_iff.mp hfs
    obtain ⟨rest,hrest,hfs⟩ := Option.bind_eq_some_iff.mp hfs
    obtain ⟨s,hs,rfl⟩ := Option.map_eq_some_iff.mp hf
    cases hfs
    rw [ih hrest]
    obtain ⟨k,v⟩ := m
    obtain rfl : v = .string s := by cases v <;> simp_all [string?]
    rfl

def accented : Json := .object [("a",.string "é"), ("b",.string "x")]

def accentedText : String := "\x7b\"a\":\"é\",\"b\":\"x\"\x7d"

def accentedOrnate : String :=
  " \x7b \"b\" : \"y\", \"a\":\"\\u00e9\",\n\"b\":\"x\" \x7d"

theorem isJson_of_strings {t : String} {fs : List (String × String)}
    (h : (parse? t).bind strings? = some fs) :
    IsJson nestingLimit t (.object (fs.map fun f => (f.1,.string f.2))) := by
  obtain ⟨j,hj,hfs⟩ := Option.bind_eq_some_iff.mp h
  rw [strings?_eq_some hfs] at hj
  exact parse?_eq_some_iff.mp hj

theorem echo_faithful_accented :
    let ctx : ToolContext := ⟨"s", none, none⟩
    parseArguments " \u3000" = .ok (.object []) ∧
    (∃ output, execute default default ctx accentedText .echo = .ok output ∧
      execute default default ctx accentedOrnate .echo = .ok output ∧
      parse? output = some (.object [("echo",accented)]) ∧
      execute default default ctx output .echo = .ok ("\x7b\"echo\":" ++ output ++ "\x7d")) ∧
    ∃ reason, execute default default ctx "[\"x\",]" .echo = .error (.invalidArguments reason) := by
  intro ctx
  obtain ⟨hblank,hvalue,hrefused,hcanonical,hagain⟩ := echo_faithful default default ctx
  have hplain : IsJson nestingLimit accentedText accented :=
    isJson_of_strings (show _ = some [("a","é"), ("b","x")] by decide +kernel)
  have hornate : IsJson nestingLimit accentedOrnate accented :=
    isJson_of_strings (show _ = some [("a","é"), ("b","x")] by decide +kernel)
  have hnested : accented.source.Nested 126 := by
    rw [accented,source,sourceMembers_eq]
    exact .object (by simp [source,Source.Nested.string])
  have hfaithful : Faithful accented := .object (by simp [Faithful.string])
  have hspaces : (" \u3000".toList.all Text.isBlank) = true := by decide +kernel
  refine ⟨hblank _ (List.all_eq_true.mp hspaces),?_,?_⟩
  · obtain ⟨output,houtput,hparse⟩ := hvalue accentedText accented hplain hnested hfaithful
    obtain ⟨other,hother,hornate⟩ := hcanonical accentedText accentedOrnate accented hplain hornate
    obtain rfl := Except.ok.inj (houtput.symm.trans hother)
    exact ⟨output,houtput,hornate,hparse,
      hagain accentedText accented output (parseArguments_isJson hplain) hnested hfaithful houtput⟩
  · have hnone : parse? "[\"x\",]" = none := Option.isNone_iff_eq_none.mp (by decide +kernel)
    obtain ⟨reason,-,hreason⟩ := hrefused "[\"x\",]" ⟨'x',by decide +kernel,by decide⟩ fun v hv => by
      rw [← parse?_eq_some_iff,hnone] at hv
      contradiction
    exact ⟨reason,hreason⟩

end Builtin
end ReasonAct

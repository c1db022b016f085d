import ReasonAct.Files.Tree
/-!
Where paths lead. A resolved path is a place without links, each of its names stands for itself, and
written out as a path it leads to itself.
-/
set_option autoImplicit false

namespace ReasonAct

namespace Path

theorem pieces_slash (cs : List Char) : pieces ('/' :: cs) = [] :: pieces cs := rfl

theorem pieces_cons {c : Char} (hc : c ≠ '/') {cs p : List Char} {ps : List (List Char)}
    (h : pieces cs = p :: ps) : pieces (c :: cs) = (c :: p) :: ps := by
  unfold pieces at h ⊢
  rw [List.foldr_cons,h,if_neg hc]

theorem pieces_eq_splitOn (cs : List Char) : pieces cs = cs.splitOn '/' := by
  induction cs with
  | nil => rfl
  | cons c cs ih =>
    rw [List.splitOn_cons_eq_if_modifyHead,← ih]
    by_cases hc : c = '/'
    · subst hc
      simp [pieces_slash]
    · cases hp : pieces cs with
      | nil => exact absurd (ih ▸ hp) (List.splitOn_ne_nil '/' cs)
      | cons p ps => simp [pieces_cons hc hp,hc]

theorem pieces_ne_nil (cs : List Char) : pieces cs ≠ [] := by
  rw [pieces_eq_splitOn]
  exact List.splitOn_ne_nil '/' cs

theorem not_slash_mem_pieces (cs : List Char) : ∀ p ∈ pieces cs, '/' ∉ p := by
  induction cs with
  | nil => simp [pieces]
  | cons c cs ih =>
    rw [pieces_eq_splitOn] at ih ⊢
    rw [List.splitOn_cons_eq_if_modifyHead]
    cases hs : cs.splitOn '/' with
    | nil => exact absurd hs (List.splitOn_ne_nil '/' cs)
    | cons p ps =>
      rw [hs] at ih
      by_cases hc : c = '/'
      · simpa [hc] using ih
      · simpa [hc,Ne.symm hc] using ih

end Path

namespace FileNode

theorem at?_append (xs ys : List String) (n : FileNode) :
    n.at? (xs ++ ys) = (n.at? xs).bind (at? ys) := by
  induction xs generalizing n with
  | nil => rfl
  | cons x xs ih =>
    cases hx : n.child? x with
    | none => simp [at?,hx]
    | some m => simp [at?,hx,ih]

def IsLink : FileNode → Prop
  | .link _ => True
  | _ => False

theorem not_isLink_of_at? {n m : FileNode} {name : String} {names : List String}
    (h : n.at? (name :: names) = some m) : ¬ n.IsLink := by
  cases n with
  | link target => simp [at?,child?] at h
  | _ => exact id

end FileNode

namespace FileTree

variable {t : FileTree}

structure IsName (name : String) : Prop where
  nonempty : name.toList ≠ []
  notHere : name.toList ≠ Path.here
  notParent : name.toList ≠ Path.parent
  noSlash : '/' ∉ name.toList
  short : ¬ longestName < name.utf8ByteSize

/-- Names that lead from the root to something, without a link on the way or at the end. -/
structure Place (t : FileTree) (names : List String) : Prop where
  proper : ∀ name ∈ names, IsName name
  there : ∃ n, t.root.at? names = some n ∧ ¬ n.IsLink

theorem Place.of_append {xs ys : List String} (h : t.Place (xs ++ ys)) : t.Place xs := by
  obtain ⟨n,hn,hlink⟩ := h.there
  refine ⟨fun name hname => h.proper name (by simp [hname]),?_⟩
  rw [FileNode.at?_append] at hn
  cases hx : t.root.at? xs with
  | none => simp [hx] at hn
  | some m =>
    rw [hx] at hn
    refine ⟨m,rfl,?_⟩
    cases ys with
    | nil => exact Option.some.inj hn ▸ hlink
    | cons y ys => exact FileNode.not_isLink_of_at? hn

theorem Place.no_link {names place : List String} (h : t.Place names) (hp : place <+: names)
    (target : String) : t.root.at? place ≠ some (.link target) := by
  obtain ⟨rest,rfl⟩ := hp
  obtain ⟨n,hn,hlink⟩ := h.of_append.there
  intro heq
  rw [heq] at hn
  exact hlink (Option.some.inj hn ▸ trivial)

theorem Place.up {place : List String} (h : t.Place place.reverse) : t.Place place.tail.reverse := by
  cases place with
  | nil => exact h
  | cons name place =>
    rw [List.reverse_cons] at h
    exact h.of_append

theorem Place.root {names : List String} (h : t.Place names) : t.Place [] := by
  rw [← List.nil_append names] at h
  exact h.of_append

theorem Place.into {place : List String} {name : String} {n : FileNode}
    (h : t.Place place.reverse) (hname : IsName name)
    (hn : t.root.at? (name :: place).reverse = some n) (hlink : ¬ n.IsLink) :
    t.Place (name :: place).reverse := by
  refine ⟨?_,n,hn,hlink⟩
  intro other hother
  rcases List.mem_cons.mp (List.mem_reverse.mp hother) with rfl | hother
  · exact hname
  · exact h.proper other (List.mem_reverse.mpr hother)

section Walk

variable {f : List (List Char) → List String → Except FileError (List String)}

/-- The ways to go on from a directory with one more piece of a path. -/
inductive Onward (t : FileTree)
    (f : List (List Char) → List String → Except FileError (List String)) (piece : List Char)
    (rest : List (List Char)) (place names : List String) : Prop
  | stay (still : piece = [] ∨ piece = Path.here) (on : t.walk f rest place = .ok names)
  | up (climb : piece = Path.parent) (on : t.walk f rest place.tail = .ok names)
  | along {target : String}
      (there : t.root.at? (String.ofList piece :: place).reverse = some (.link target))
      (on : f (Path.pieces target.toList ++ rest)
        (if Path.isAbsolute target then [] else place) = .ok names)
  | into {n : FileNode} (name : '/' ∉ piece → IsName (String.ofList piece))
      (there : t.root.at? (String.ofList piece :: place).reverse = some n) (notLink : ¬ n.IsLink)
      (on : t.walk f rest (String.ofList piece :: place) = .ok names)

theorem walk_cons_ok {piece : List Char} {rest : List (List Char)} {place names : List String}
    (h : t.walk f (piece :: rest) place = .ok names) :
    (∃ entries, t.root.at? place.reverse = some (.directory entries)) ∧
      Onward t f piece rest place names := by
  unfold walk at h
  split at h
  · rename_i entries hdir
    have hthere {n : FileNode} (hn : entries.lookup (String.ofList piece) = some n) :
        t.root.at? (String.ofList piece :: place).reverse = some n := by
      rw [List.reverse_cons,FileNode.at?_append,hdir]
      simpa [FileNode.at?,FileNode.child?] using hn
    refine ⟨⟨entries,hdir⟩,?_⟩
    split at h
    · exact .stay ‹_› h
    rename_i hstay
    rw [not_or] at hstay
    split at h
    · exact .up ‹_› h
    rename_i hparent
    dsimp only at h
    split at h
    · contradiction
    rename_i hshort
    split at h
    · contradiction
    · exact .along (hthere ‹_›) h
    · rename_i n hlink hn
      refine .into (fun hslash => ?_) (hthere hn) ?_ h
      · exact ⟨by simpa using hstay.1,by simpa using hstay.2,by simpa using hparent,
          by simpa using hslash,hshort⟩
      · cases n with
        | link target => exact absurd rfl (hlink target)
        | _ => exact id
  · contradiction
  · contradiction

theorem follow_directory {links : Nat} {piece : List Char} {pieces : List (List Char)}
    {place names : List String} (h : t.follow links (piece :: pieces) place = .ok names) :
    ∃ entries, t.root.at? place.reverse = some (.directory entries) := by
  cases links <;> exact (walk_cons_ok h).1

/-- Going along a path keeps to places, as long as going on after a link does. -/
theorem walk_place (hf : ∀ pieces place names, (∀ p ∈ pieces, '/' ∉ p) → t.Place place.reverse →
      f pieces place = .ok names → t.Place names.reverse)
    {pieces : List (List Char)} {place names : List String} (hp : ∀ p ∈ pieces, '/' ∉ p)
    (hplace : t.Place place.reverse) (h : t.walk f pieces place = .ok names) :
    t.Place names.reverse := by
  induction pieces generalizing place with
  | nil =>
    obtain rfl := Except.ok.inj h
    exact hplace
  | cons piece rest ih =>
    obtain ⟨hpiece,hrest⟩ := List.forall_mem_cons.mp hp
    cases (walk_cons_ok h).2 with
    | stay _ on => exact ih hrest hplace on
    | up _ on => exact ih hrest hplace.up on
    | @along target _ on =>
      have htarget : ∀ p ∈ Path.pieces target.toList ++ rest, '/' ∉ p :=
        List.forall_mem_append.mpr ⟨Path.not_slash_mem_pieces target.toList,hrest⟩
      refine hf _ _ _ htarget ?_ on
      split
      · exact hplace.root
      · exact hplace
    | into name there notLink on => exact ih hrest (hplace.into (name hpiece) there notLink) on

theorem follow_place (links : Nat) : ∀ pieces place names, (∀ p ∈ pieces, '/' ∉ p) →
    t.Place place.reverse → t.follow links pieces place = .ok names → t.Place names.reverse := by
  induction links with
  | zero => exact fun pieces place names hp hplace h =>
      walk_place (fun _ _ _ _ _ h => by contradiction) hp hplace h
  | succ links ih => exact fun pieces place names hp hplace h => walk_place ih hp hplace h

theorem walk_names {names place : List String} {n : FileNode} (hnames : ∀ name ∈ names, IsName name)
    (hplace : t.root.at? place.reverse = some n) {m : FileNode} (hm : n.at? names = some m)
    (hlink : ¬ m.IsLink) :
    t.walk f (names.map String.toList) place = .ok (names.reverse ++ place) := by
  induction names generalizing place n with
  | nil => rfl
  | cons name names ih =>
    obtain ⟨hname,hrest⟩ := List.forall_mem_cons.mp hnames
    cases hc : n.child? name with
    | none => simp [FileNode.at?,hc] at hm
    | some child =>
      have hchild : child.at? names = some m := by simpa [FileNode.at?,hc] using hm
      have hchildLink : ¬ child.IsLink := by
        cases names with
        | nil => exact Option.some.inj hchild ▸ hlink
        | cons _ _ => exact FileNode.not_isLink_of_at? hchild
      have hnext : t.root.at? (name :: place).reverse = some child := by
        rw [List.reverse_cons,FileNode.at?_append,hplace]
        simpa [FileNode.at?] using hc
      cases n with
      | directory entries =>
        have hlookup : entries.lookup name = some child := hc
        rw [List.map_cons,walk]
        simp only [hplace,hname.nonempty,hname.notHere,hname.notParent,hname.short,or_self,if_false,
          String.ofList_toList,hlookup]
        cases child with
        | link target => exact absurd trivial hchildLink
        | _ => simpa using ih hrest hnext hchild
      | _ => contradiction

end Walk

theorem resolve_eq_ok {path : String} {names : List String} (h : t.resolve path = .ok names) :
    '\x00' ∉ path.toList ∧ ∃ place, names = place.reverse ∧
      t.follow linkLimit (Path.pieces path.toList)
        (if Path.isAbsolute path then [] else t.current.reverse) = .ok place := by
  unfold resolve at h
  dsimp only at h
  split at h
  · contradiction
  rename_i hnul
  split at h
  · contradiction
  refine ⟨by simpa using hnul,?_⟩
  cases hf : t.follow linkLimit (Path.pieces path.toList)
      (if Path.isAbsolute path then [] else t.current.reverse) with
  | error e =>
    rw [hf] at h
    contradiction
  | ok place =>
    rw [hf] at h
    exact ⟨place,(Except.ok.inj h).symm,rfl⟩

theorem resolve_place {path : String} {names : List String} (habs : Path.isAbsolute path = true)
    (h : t.resolve path = .ok names) :
    t.Place names ∧ ∃ entries, t.root = .directory entries := by
  obtain ⟨-,place,rfl,hf⟩ := resolve_eq_ok h
  rw [if_pos habs] at hf
  obtain ⟨piece,pieces,hp⟩ := List.exists_cons_of_ne_nil (Path.pieces_ne_nil path.toList)
  have hroot : ∃ entries, t.root = .directory entries := by
    rw [hp] at hf
    obtain ⟨entries,he⟩ := follow_directory hf
    exact ⟨entries,Option.some.inj he⟩
  refine ⟨?_,hroot⟩
  obtain ⟨entries,he⟩ := hroot
  refine follow_place linkLimit _ [] place (Path.not_slash_mem_pieces path.toList) ?_ hf
  exact ⟨by simp,t.root,rfl,by rw [he]; exact id⟩

theorem toList_pathOf (names : List String) :
    (pathOf names).toList = '/' :: ['/'].intercalate (names.map String.toList) := by
  simp [pathOf,String.toList_intercalate]

theorem resolve_pathOf {names : List String} (h : t.Place names)
    (hroot : ∃ entries, t.root = .directory entries) (hnul : '\x00' ∉ (pathOf names).toList) :
    t.resolve (pathOf names) = .ok names := by
  obtain ⟨entries,hroot⟩ := hroot
  obtain ⟨n,hn,hlink⟩ := h.there
  have hpieces : Path.pieces (pathOf names).toList =
      [] :: if names = [] then [[]] else names.map String.toList := by
    rw [toList_pathOf,Path.pieces_eq_splitOn,List.splitOn_cons_eq_if_modifyHead]
    cases names with
    | nil => rfl
    | cons name names =>
      rw [List.splitOn_intercalate '/' _ (by simp)]
      · simp
      · intro cs hcs
        obtain ⟨name',hname,rfl⟩ := List.mem_map.mp hcs
        exact (h.proper name' hname).noSlash
  have hwalk : t.follow linkLimit (Path.pieces (pathOf names).toList) [] =
      .ok names.reverse := by
    have hskip (rest : List (List Char)) : t.follow linkLimit ([] :: rest) [] =
        t.walk (t.follow 39) rest [] := by
      show t.walk (t.follow 39) ([] :: rest) [] = _
      rw [walk]
      simp [FileNode.at?,hroot]
    rw [hpieces,hskip]
    cases names with
    | nil => simp [walk,FileNode.at?,hroot]
    | cons name names =>
      have hgo := walk_names (f := t.follow 39) h.proper (show t.root.at? [].reverse = some t.root
        from rfl) hn hlink
      simpa using hgo
  have habs : Path.isAbsolute (pathOf names) = true := by
    simp [Path.isAbsolute,toList_pathOf]
  have hempty : (pathOf names).toList.isEmpty = false := by simp [toList_pathOf]
  simp only [resolve,List.contains_iff_mem,hnul,hempty,habs,hwalk,if_true,if_false,Except.map,
    List.reverse_reverse,Bool.false_eq_true]

theorem read_eq_ok {path : String} {bytes : List UInt8} (h : t.read path = .ok bytes) :
    ∃ names, t.resolve path = .ok names ∧ t.root.at? names = some (.file bytes) := by
  unfold read at h
  cases hr : t.resolve path with
  | error e => simp [hr,bind,Except.bind] at h
  | ok names =>
    refine ⟨names,rfl,?_⟩
    simp only [hr,bind,Except.bind] at h
    split at h
    · rename_i there hfile
      obtain rfl := Except.ok.inj h
      exact hfile
    · contradiction
    · contradiction

theorem read_pathOf {names : List String} (h : t.Place names)
    (hroot : ∃ entries, t.root = .directory entries) {bytes : List UInt8}
    (hread : t.read (pathOf names) = .ok bytes) :
    t.root.at? names = some (.file bytes) := by
  obtain ⟨there,hresolve,hfile⟩ := read_eq_ok hread
  obtain rfl : names = there := by
    have hself := resolve_pathOf h hroot (resolve_eq_ok hresolve).1
    exact Except.ok.inj (hself.symm.trans hresolve)
  exact hfile

end FileTree
end ReasonAct

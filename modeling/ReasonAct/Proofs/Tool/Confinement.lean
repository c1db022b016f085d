import ReasonAct.Proofs.Files.Resolution
import ReasonAct.Tool.Builtin
/-!
The tool that reads files stays below the working directory. Whatever is asked for, and wherever
links lead, the file it shows lies below the directory's own place; and a request that climbs is
denied without a look at the files.
-/
set_option autoImplicit false

namespace ReasonAct

namespace Path

theorem isAbsolute_join {directory : String} (path : String) (h : isAbsolute directory = true) :
    isAbsolute (join directory path) = true := by
  unfold join
  split
  · assumption
  · simp only [isAbsolute,decide_eq_true_eq] at h
    split <;> simp [isAbsolute,List.head?_append,h]

theorem climbs_iff {path : String} :
    climbs path = true ↔ parent ∈ path.toList.splitOn '/' := by
  simp [climbs,pieces_eq_splitOn]

end Path

theorem FileTree.isAbsolute_pathOf (names : List String) :
    Path.isAbsolute (pathOf names) = true := by simp [Path.isAbsolute,toList_pathOf]

theorem Json.string?_eq_some {j : Json} {s : String} (h : j.string? = some s) : j = .string s := by
  cases j <;> simp_all [string?]

theorem Except.eq_ok_of_toOption {ε α : Type} {x : Except ε α} {a : α}
    (h : x.toOption = some a) : x = .ok a := by
  cases x with
  | error e => contradiction
  | ok b => rw [Option.some.inj h]

namespace Builtin

/-- The file that is shown lies at a place below the place of the working directory, and no name on
the way to it is a link. -/
structure ShownBelow (files : FileTree) (dir requested : String) (maxBytes : Nat)
    (output : String) (root target : List String) (bytes : List UInt8) : Prop where
  directory : files.resolve dir = .ok root
  below : root <+: target
  file : files.root.at? target = some (.file bytes)
  noLink : ∀ place link, place <+: target → files.root.at? place ≠ some (.link link)
  reached : files.resolve (Path.join (FileTree.pathOf root) requested) = .ok target
  told : output = shown maxBytes requested bytes

theorem locate_eq_ok {files : FileTree} {dir requested path : String}
    (h : locate files (some dir) requested = .ok path) :
    ∃ root target, files.resolve dir = .ok root ∧
      files.resolve (Path.join (FileTree.pathOf root) requested) = .ok target ∧ root <+: target ∧
      path = FileTree.pathOf target := by
  unfold locate at h
  split at h
  · contradiction
  dsimp only at h
  split at h
  · contradiction
  rename_i root hroot
  split at h
  · contradiction
  rename_i target htarget
  split at h
  · rename_i hbelow
    exact ⟨root,target,hroot,htarget,List.isPrefixOf_iff_prefix.mp hbelow,(Except.ok.inj h).symm⟩
  · contradiction

theorem readFile_eq_ok {files : FileTree} {maxBytes : Nat} {dir output : String} {args : Json}
    (h : readFile files maxBytes (some dir) args = .ok output) :
    ∃ requested path bytes, args.member "path" = .string requested ∧
      locate files (some dir) requested = .ok path ∧ files.read path = .ok bytes ∧
      output = shown maxBytes requested bytes := by
  unfold readFile at h
  split at h
  · contradiction
  rename_i requested hrequested
  have hmember := Json.string?_eq_some (Option.filter_eq_some_iff.mp hrequested).1
  cases hl : locate files (some dir) requested with
  | error e => simp [hl,bind,Except.bind] at h
  | ok path =>
    simp only [hl,bind,Except.bind] at h
    split at h
    · contradiction
    · rename_i bytes hbytes
      exact ⟨requested,path,bytes,hmember,hl,hbytes,(Except.ok.inj h).symm⟩

theorem readFile_below {files : FileTree} {maxBytes : Nat} {dir output : String} {args : Json}
    (h : readFile files maxBytes (some dir) args = .ok output) :
    ∃ requested root target bytes, args.member "path" = .string requested ∧
      ShownBelow files dir requested maxBytes output root target bytes := by
  obtain ⟨requested,path,bytes,hmember,hlocate,hread,houtput⟩ := readFile_eq_ok h
  obtain ⟨root,target,hroot,htarget,hbelow,rfl⟩ := locate_eq_ok hlocate
  have habs := Path.isAbsolute_join requested (FileTree.isAbsolute_pathOf root)
  obtain ⟨hplace,htree⟩ := FileTree.resolve_place habs htarget
  exact ⟨requested,root,target,bytes,hmember,
    { directory := hroot
      below := hbelow
      file := FileTree.read_pathOf hplace htree hread
      noLink := fun place link hp => hplace.no_link hp link
      reached := htarget
      told := houtput }⟩

theorem readFile_climbing (files : FileTree) (maxBytes : Nat) (workingDir : Option String)
    {args : Json} {requested : String} (hmember : args.member "path" = .string requested)
    (hclimbs : Path.climbs requested = true) :
    readFile files maxBytes workingDir args =
      .error (denied ("'" ++ requested ++ "' escapes the working directory")) := by
  have hne : requested.isEmpty = false := by
    cases he : requested.isEmpty with
    | false => rfl
    | true =>
      rw [String.isEmpty_iff.mp he] at hclimbs
      contradiction
  have hfilter : (some requested).filter (!·.isEmpty) = some requested := by simp [hne]
  simp only [readFile,hmember,Json.string?,hfilter,locate,hclimbs,bind,Except.bind,if_true]

theorem execute_fileRead (files : FileTree) (now : Instant) (ctx : ToolContext)
    (arguments : String) (maxBytes : Nat) :
    execute files now ctx arguments (.fileRead maxBytes) =
      (parseArguments arguments).bind (readFile files maxBytes ctx.workingDir) := rfl

/-- Whatever is asked for, in whatever tree: what is shown lies below the working directory, and a
request with `..` between its slashes is denied. -/
theorem fileRead_confined (files : FileTree) (now : Instant) (ctx : ToolContext) (dir : String)
    (hdir : ctx.workingDir = some dir) (maxBytes : Nat) (arguments : String) :
    (∀ output, execute files now ctx arguments (.fileRead maxBytes) = .ok output →
      ∃ args requested root target bytes, parseArguments arguments = .ok args ∧
        args.member "path" = .string requested ∧
        ShownBelow files dir requested maxBytes output root target bytes) ∧
    ∀ args requested, parseArguments arguments = .ok args →
      args.member "path" = .string requested →
      ['.', '.'] ∈ requested.toList.splitOn '/' →
      execute files now ctx arguments (.fileRead maxBytes) =
        .error (denied ("'" ++ requested ++ "' escapes the working directory")) := by
  rw [execute_fileRead,hdir]
  refine ⟨?_,?_⟩
  · intro output h
    cases hargs : parseArguments arguments with
    | error e => simp [hargs,Except.bind] at h
    | ok args =>
      rw [hargs] at h
      obtain ⟨requested,root,target,bytes,hmember,hshown⟩ := readFile_below h
      exact ⟨args,requested,root,target,bytes,rfl,hmember,hshown⟩
  · intro args requested hargs hmember hclimbs
    rw [hargs]
    exact readFile_climbing files maxBytes (some dir) hmember (Path.climbs_iff.mpr hclimbs)

def linkedTree : FileTree where
  root := .directory
    [("work", .directory [("note", .file [104, 105]), ("same", .link "/work/note"),
        ("out", .link "../workshop/plan")]),
      ("workshop", .directory [("plan", .file [63])])]
  current := []

def linkedOutput : String :=
  "\x7b\"bytes\":2,\"content\":\"hi\",\"path\":\"./same\",\"truncated\":false\x7d"

theorem fileRead_confined_linked :
    (∃ args requested root target bytes, parseArguments "\x7b\"path\":\"./same\"\x7d" = .ok args ∧
        args.member "path" = .string requested ∧
        ShownBelow linkedTree "/work/" requested 9 linkedOutput root target bytes) ∧
      execute linkedTree default ⟨"s", some "/work/", none⟩ "\x7b\"path\":\"../work/note\"\x7d"
        (.fileRead 9) = .error (denied "'../work/note' escapes the working directory") := by
  have confined (arguments : String) :=
    fileRead_confined linkedTree default ⟨"s", some "/work/", none⟩ "/work/" rfl 9 arguments
  refine ⟨(confined _).1 linkedOutput (Except.eq_ok_of_toOption (by decide +kernel)),?_⟩
  have hrequested : (parseArguments "\x7b\"path\":\"../work/note\"\x7d").toOption.bind
      (fun args => (args.member "path").string?) = some "../work/note" := by decide +kernel
  obtain ⟨args,hargs,hpath⟩ := Option.bind_eq_some_iff.mp hrequested
  exact (confined _).2 args "../work/note" (Except.eq_ok_of_toOption hargs)
    (Json.string?_eq_some hpath) (by decide +kernel)

end Builtin
end ReasonAct

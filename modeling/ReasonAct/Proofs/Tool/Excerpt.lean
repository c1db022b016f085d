import ReasonAct.Proofs.Chat.Payload
import ReasonAct.Proofs.Text.Truncation
import ReasonAct.Proofs.Tool.Confinement
set_option autoImplicit false

namespace ReasonAct.Builtin

open Json Text.Utf8

structure Opens (files : FileTree) (workingDir : Option String) (requested : String)
    (bytes : List UInt8) : Prop where
  nonempty : requested ≠ ""
  file : ∃ path place, locate files workingDir requested = .ok path ∧
    files.resolve path = .ok place ∧ files.root.at? place = some (.file bytes)

theorem take_readLimit {bytes : List UInt8} (h : bytes.length < UInt64.size) (maxBytes : Nat) :
    (bytes.take (readLimit maxBytes)).take maxBytes = bytes.take maxBytes := by
  rw [List.take_take,List.take_eq_take_iff,readLimit]
  omega

/-- What is read is longer than what may be shown if the file is. At the top of the range no byte
can be read past the limit, and no file is longer either. -/
theorem lt_length_take_readLimit {bytes : List UInt8} (h : bytes.length < UInt64.size)
    (maxBytes : Nat) :
    maxBytes < (bytes.take (readLimit maxBytes)).length ↔ maxBytes < bytes.length := by
  rw [List.length_take,readLimit]
  omega

theorem shown_eq {bytes : List UInt8} (h : bytes.length < UInt64.size) (maxBytes : Nat)
    (requested : String) : shown maxBytes requested bytes =
      (Json.object [("bytes", .ofNat bytes.length),
        ("content", .string (decodeLossy (bytes.take maxBytes))), ("path", .string requested),
        ("truncated", .bool (maxBytes < bytes.length))]).text := by
  simp only [shown,take_readLimit h,lt_length_take_readLimit h,ofFields,Members.ofList,
    Members.insert,List.foldl_cons,List.foldl_nil,String.reduceLT,String.reduceEq,↓reduceIte]

theorem parse?_shown {bytes : List UInt8} (h : bytes.length < UInt64.size) (maxBytes : Nat)
    (requested : String) : parse? (shown maxBytes requested bytes) =
      some (.object [("bytes", .ofNat bytes.length),
        ("content", .string (decodeLossy (bytes.take maxBytes))), ("path", .string requested),
        ("truncated", .bool (maxBytes < bytes.length))]) := by
  have hlength : (Number.int bytes.length).Exact := Number.exact_int (by omega) (by omega)
  rw [shown_eq h]
  refine Json.Sorted.parse?_text (.of_names ?_ ?_) ?_
  · show ["bytes", "content", "path", "truncated"].Pairwise (· < ·)
    decide
  · simp [Json.Sorted.string,Json.Sorted.bool,Json.Sorted.number,ofNat]
  · simp [Json.source,sourceMembers,nestingLimit,ofNat,hlength]

theorem readFile_opens {files : FileTree} {workingDir : Option String} {args : Json}
    {requested : String} {bytes : List UInt8} (hpath : args.member "path" = .string requested)
    (h : Opens files workingDir requested bytes) (maxBytes : Nat) :
    readFile files maxBytes workingDir args = .ok (shown maxBytes requested bytes) := by
  obtain ⟨path,place,hlocate,hplace,hfile⟩ := h.file
  have hasked : (some requested).filter (!·.isEmpty) = some requested := by simp [h.nonempty]
  have hread : files.read path = .ok bytes := by
    simp only [FileTree.read,hplace,hfile,bind,Except.bind]
  simp only [readFile,hpath,Json.string?,hasked,hlocate,hread,bind,Except.bind]

/-- What is told of a file is read back as its path, its length, whether it is longer than what may
be shown, and the text of its first bytes. Of a text these are the characters that fit, and one
U+FFFD after them if the limit falls inside a character. -/
theorem fileRead_cuts (files : FileTree) (now : Instant) (ctx : ToolContext)
    {arguments requested : String} {args : Json} {bytes : List UInt8}
    (hargs : parseArguments arguments = .ok args) (hpath : args.member "path" = .string requested)
    (hopens : Opens files ctx.workingDir requested bytes) (hsize : bytes.length < UInt64.size)
    (maxBytes : Nat) :
    ∃ output content, execute files now ctx arguments (.fileRead maxBytes) = .ok output ∧
      parse? output = some (.object [("bytes", .ofNat bytes.length), ("content", .string content),
        ("path", .string requested), ("truncated", .bool (maxBytes < bytes.length))]) ∧
      content = decodeLossy (bytes.take (min maxBytes bytes.length)) ∧
      ∀ s, bytes = encode s → ∃ whole, LongestFitting s.toList maxBytes whole ∧
        (CutsInside s.toList maxBytes ∧ content = String.ofList (whole ++ [Char.ofNat 0xFFFD]) ∨
          ¬ CutsInside s.toList maxBytes ∧ content = String.ofList whole) := by
  refine ⟨shown maxBytes requested bytes,decodeLossy (bytes.take maxBytes),?_,
    parse?_shown hsize maxBytes requested,?_,?_⟩
  · rw [execute_fileRead,hargs]
    exact readFile_opens hpath hopens maxBytes
  · rw [← List.take_eq_take_min]
  · rintro s rfl
    exact decodeLossy_take s maxBytes

def smallTree : FileTree where
  root := .directory [("work", .directory [("note", .file [110, 195, 169, 240, 159, 152, 128])])]
  current := []

theorem fileRead_cuts_last :
    ∃ output content whole, execute smallTree default ⟨"s", some "/work", none⟩
        "\x7b\"path\":\"note\"\x7d" (.fileRead 5) = .ok output ∧
      parse? output = some (.object [("bytes", .ofNat 7), ("content", .string content),
        ("path", .string "note"), ("truncated", .bool true)]) ∧
      LongestFitting ['n', 'é', '😀'] 5 whole ∧
      content = String.ofList (whole ++ [Char.ofNat 0xFFFD]) := by
  have hargs : (parseArguments "\x7b\"path\":\"note\"\x7d").toOption.bind
      (fun args => (args.member "path").string?) = some "note" := by decide +kernel
  obtain ⟨args,hargs,hpath⟩ := Option.bind_eq_some_iff.mp hargs
  have hopens : Opens smallTree (some "/work") "note" [110, 195, 169, 240, 159, 152, 128] :=
    ⟨by decide,"/work/note",["work", "note"],Except.eq_ok_of_toOption (by decide +kernel),
      Except.eq_ok_of_toOption (by decide +kernel),rfl⟩
  have htext : [110, 195, 169, 240, 159, 152, 128] = encode "né😀" := by
    rw [encode_eq]
    decide +kernel
  have hcut : CutsInside ['n', 'é', '😀'] 5 :=
    ⟨['n', 'é'],'😀',[],rfl,by decide +kernel,by decide +kernel⟩
  obtain ⟨output,content,hexecute,hparse,-,hwhole⟩ :=
    fileRead_cuts smallTree default ⟨"s", some "/work", none⟩ (Except.eq_ok_of_toOption hargs)
      (Json.string?_eq_some hpath) hopens (by decide) 5
  obtain ⟨whole,hfitting,⟨-,hcontent⟩ | ⟨hnot,-⟩⟩ := hwhole "né😀" htext
  · exact ⟨output,content,whole,hexecute,hparse,hfitting,hcontent⟩
  · exact absurd hcut hnot

end ReasonAct.Builtin

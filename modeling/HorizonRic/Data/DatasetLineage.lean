import HorizonRic.Library.NamedTrees
import HorizonRic.Library.SeparatedFields
import HorizonRic.Python.FileNames
import Mathlib.Data.List.Lex
import Mathlib.Data.Set.Function

/-!
`data/lineage.py`: the hash of a dataset, over one row for each of its files. The digest
and the order in which the file system lists a directory are parameters.
-/
namespace HorizonRic.DatasetLineage
open Py Json NamedTrees

/-- The name of an entry of a directory. -/
@[ext] structure FileName where
  chars : List NameChar
  nonempty : chars ≠ []
  noSlash : .char '/' ∉ chars

/-- A regular file; `st_size` is an `off_t`. -/
@[ext] structure FileData where
  size : ℕ
  content : Bytes
  fits : size < 2 ^ 63

/-- A special entry is no regular file and is not descended into. -/
inductive Entry where
  | file (data : FileData)
  | special

abbrev Node := Tree FileName Entry

structure Directory where
  entries : List (FileName × Node)
  distinct : (Tree.branch entries).Distinct

inductive Root where
  | missing
  | file (name : FileName) (data : FileData)
  | directory (d : Directory)

/-- Paths relative to the root, with what is there. -/
abbrev Listing := List (List FileName × Node)

/-- `rglob("*")` gives everything below the root, in some order. -/
def Root.Lists : Root → Listing → Prop
  | .directory d, listing => listing.Perm (entriesWithin d.entries)
  | _, _ => True

def chunkSize : ℕ := 1024 * 1024

/-- What the digest has been fed when the stream is at its end. -/
def feed (chunkSize : ℕ) (stream fed : Bytes) : Bytes :=
  let chunk := stream.take chunkSize
  if chunk = [] then fed
  else feed chunkSize (stream.drop chunkSize) (fed ++ chunk)
termination_by stream.length
decreasing_by
  rename_i some_
  rw [List.take_eq_nil_iff] at some_
  have := List.length_pos_iff.mpr fun empty => some_ (Or.inr empty)
  rw [List.length_drop]
  omega

/-- `str` of a path. -/
def pathText : List FileName → List NameChar
  | [] => []
  | [name] => name.chars
  | name :: rest => name.chars ++ .char '/' :: pathText rest

/-- Paths are compared part by part. -/
def sortKey (path : List FileName) : List (List ℕ) :=
  path.map fun name => name.chars.map NameChar.codePoint

structure Row where
  path : List NameChar
  size : ℕ
  sha256 : String

section
variable (sha256 : Bytes → Digest)

def sha256File (content : Bytes) : String := (sha256 (feed chunkSize content [])).hex

/-- The row of a path, if a file is there. -/
def fileRow (p : List FileName × Node) : Option Row :=
  match p.2 with
  | .leaf (.file data) => some ⟨pathText p.1, data.size, sha256File sha256 data.content⟩
  | _ => none

def fileManifestRows (root : Root) (listing : Listing) : List Row :=
  match root with
  | .missing => []
  | .file name data => [⟨name.chars, data.size, sha256File sha256 data.content⟩]
  | .directory _ =>
    (listing.insertionSort fun p p' => sortKey p.1 ≤ sortKey p'.1).filterMap (fileRow sha256)

end

def rowText (row : Row) : List Char :=
  '[' :: (quoteName row.path ++ ',' :: ((toString (row.size : Int)).toList ++
    ',' :: (quote row.sha256 ++ [']'])))

def rowsText : List Row → List Char
  | [] => []
  | [row] => rowText row
  | row :: rest => rowText row ++ ',' :: rowsText rest

/-- `json.dumps` of the rows, compact. -/
def dumpsRows (rows : List Row) : String := String.ofList ('[' :: (rowsText rows ++ [']']))

def computeDatasetSha256 (sha256 : Bytes → Digest) (root : Root) (listing : Listing) : String :=
  (sha256 (utf8 (dumpsRows (fileManifestRows sha256 root listing)))).hex

/-! The text of the rows has one reading. -/

theorem comma_not_mem_int_text (n : Int) : ',' ∉ (toString n).toList := by
  obtain ⟨minus, whole, text, sign, digits, _⟩ := int_text n
  rw [text, List.mem_append, not_or]
  refine ⟨?_, ?_⟩
  · rcases sign with rfl | rfl <;> decide
  · rcases digits with rfl | ⟨c, tail, _, _, all⟩
    · decide
    · intro member
      exact absurd (all ',' member) (by decide)

theorem quote_unique {s t : String} {a b : List Char} (same : quote s ++ a = quote t ++ b) :
    s = t ∧ a = b := by
  rw [← quoteName_string, ← quoteName_string] at same
  obtain ⟨chars, rest⟩ := quoteName_unique same
  have letters : s.toList = t.toList :=
    List.map_injective_iff.mpr (fun _ _ same => NameChar.char.inj same) chars
  exact ⟨String.toList_inj.mp letters, rest⟩

theorem rowText_unique {row row' : Row} {a b : List Char}
    (same : rowText row ++ a = rowText row' ++ b) : row = row' ∧ a = b := by
  obtain ⟨path, size, digest⟩ := row
  obtain ⟨path', size', digest'⟩ := row'
  simp only [rowText, List.cons_append, List.append_assoc, List.cons.injEq, true_and] at same
  obtain ⟨paths, afterPath⟩ := quoteName_unique same
  obtain ⟨sizes, afterSize⟩ := SeparatedFields.first_ends (comma_not_mem_int_text _)
    (comma_not_mem_int_text _) (List.cons.inj afterPath).2
  obtain ⟨digests, afterDigest⟩ := quote_unique afterSize
  have numbers : (size : Int) = size' := int_text_unique sizes
  have equal : size = size' := by omega
  subst paths equal digests
  exact ⟨rfl, (List.cons.inj afterDigest).2⟩

/-- What follows a row. -/
def afterRow : List Row → List Char
  | [] => [']']
  | row :: rest => ',' :: (rowsText (row :: rest) ++ [']'])

theorem rowsText_cons (row : Row) (rest : List Row) :
    rowsText (row :: rest) ++ [']'] = rowText row ++ afterRow rest := by
  cases rest with
  | nil => rfl
  | cons next rest => simp only [rowsText, afterRow, List.append_assoc, List.cons_append]

theorem rowsText_unique {rows rows' : List Row}
    (same : rowsText rows ++ [']'] = rowsText rows' ++ [']']) : rows = rows' := by
  induction rows generalizing rows' with
  | nil =>
    cases rows' with
    | nil => rfl
    | cons row' rest' =>
      rw [rowsText_cons, rowText] at same
      exact absurd (List.cons.inj same).1 (by decide)
  | cons row rest ih =>
    cases rows' with
    | nil =>
      rw [rowsText_cons, rowText] at same
      exact absurd (List.cons.inj same).1 (by decide)
    | cons row' rest' =>
      rw [rowsText_cons, rowsText_cons] at same
      obtain ⟨first, later⟩ := rowText_unique same
      rw [first]
      cases rest with
      | nil =>
        cases rest' with
        | nil => rfl
        | cons => exact absurd (List.cons.inj later).1 (by decide)
      | cons =>
        cases rest' with
        | nil => exact absurd (List.cons.inj later).1 (by decide)
        | cons => rw [ih (List.cons.inj later).2]

theorem dumpsRows_injective {rows rows' : List Row} (same : dumpsRows rows = dumpsRows rows') :
    rows = rows' := by
  unfold dumpsRows at same
  exact rowsText_unique (List.cons.inj (String.ofList_inj.mp same)).2

/-- Rows whose paths are ordinary text are printed like any list of lists. -/
theorem rowsText_print (py : Interpreter) (rows : List (String × ℕ × String)) :
    '[' :: (rowsText (rows.map fun (path, size, digest) =>
      ⟨path.toList.map NameChar.char, size, digest⟩) ++ [']']) =
        print py compact (.list (rows.map fun (path, size, digest) =>
          .list [.str path, .int size, .str digest])) := by
  have one : ∀ (path : String) (size : ℕ) (digest : String),
      rowText ⟨path.toList.map NameChar.char, size, digest⟩ =
        print py compact (.list [.str path, .int size, .str digest]) := by
    intro path size digest
    simp only [rowText, quoteName_string, print, printElements, compact, List.append_assoc,
      List.cons_append, List.nil_append]
  rw [print]
  congr 2
  induction rows with
  | nil => rfl
  | cons row rest ih =>
    cases rest with
    | nil => exact one row.1 row.2.1 row.2.2
    | cons next rest =>
      rw [List.map_cons, List.map_cons] at ih ⊢
      rw [List.map_cons, List.map_cons, rowsText, printElements, one, ih]
      · simp only [compact, List.append_assoc, List.cons_append, List.nil_append]
      · exact List.cons_ne_nil _ _
      · exact List.cons_ne_nil _ _

/-! The text of a path has one reading. -/

theorem pathText_eq_nil {path : List FileName} (empty : pathText path = []) : path = [] := by
  cases path with
  | nil => rfl
  | cons name rest =>
    cases rest with
    | nil => exact (name.nonempty empty).elim
    | cons next rest =>
      rw [pathText] at empty
      · exact (name.nonempty (List.append_eq_nil_iff.mp empty).1).elim
      · exact List.cons_ne_nil _ _

theorem pathText_injective {path path' : List FileName} (same : pathText path = pathText path') :
    path = path' := by
  induction path generalizing path' with
  | nil => exact (pathText_eq_nil same.symm).symm
  | cons name rest ih =>
    cases path' with
    | nil => exact pathText_eq_nil same
    | cons name' rest' =>
      cases rest with
      | nil =>
        cases rest' with
        | nil => rw [FileName.ext same]
        | cons next' rest' =>
          simp only [pathText] at same
          exact (name.noSlash (by rw [same]; simp)).elim
      | cons next rest =>
        cases rest' with
        | nil =>
          simp only [pathText] at same
          exact (name'.noSlash (by rw [← same]; simp)).elim
        | cons next' rest' =>
          simp only [pathText] at same
          obtain ⟨first, later⟩ := SeparatedFields.first_ends name'.noSlash name.noSlash same
          rw [FileName.ext first, ih later]

theorem sortKey_injective {path path' : List FileName} (same : sortKey path = sortKey path') :
    path = path' := by
  refine List.map_injective_iff.mpr (fun name name' chars => ?_) same
  exact FileName.ext (List.map_injective_iff.mpr (fun _ _ => NameChar.codePoint_injective) chars)

/-- The chunks make up the file. -/
theorem feed_all {chunkSize : ℕ} (positive : 0 < chunkSize) (stream fed : Bytes) :
    feed chunkSize stream fed = fed ++ stream := by
  fun_induction feed chunkSize stream fed with
  | case1 stream fed chunk ended =>
    rcases List.take_eq_nil_iff.mp ended with none_ | empty
    · omega
    · rw [empty, List.append_nil]
  | case2 stream fed chunk more ih => rw [ih, List.append_assoc, List.take_append_drop]

/-! The rows are those of the files, in one order. -/

def fileAt (p : List FileName × Node) : Option (List FileName × FileData) :=
  match p.2 with
  | .leaf (.file data) => some (p.1, data)
  | _ => none

/-- The files of a dataset with their relative paths. -/
def Root.files : Root → List (List FileName × FileData)
  | .missing => []
  | .file name data => [([name], data)]
  | .directory d => (entriesWithin d.entries).filterMap fileAt

/-- What the hash stands for. -/
def Root.triples (root : Root) : Set (List FileName × ℕ × Bytes) :=
  {t | ∃ f ∈ root.files, t = (f.1, f.2.size, f.2.content)}

def sortedFiles (root : Root) (listing : Listing) : List (List FileName × FileData) :=
  match root with
  | .directory _ => (listing.insertionSort fun p p' => sortKey p.1 ≤ sortKey p'.1).filterMap fileAt
  | _ => root.files

def rowOf (sha256 : Bytes → Digest) (f : List FileName × FileData) : Row :=
  ⟨pathText f.1, f.2.size, sha256File sha256 f.2.content⟩

theorem rows_eq (sha256 : Bytes → Digest) (root : Root) (listing : Listing) :
    fileManifestRows sha256 root listing = (sortedFiles root listing).map (rowOf sha256) := by
  cases root with
  | missing => rfl
  | file name data => rfl
  | directory d =>
    simp only [fileManifestRows, sortedFiles, List.map_filterMap]
    apply List.filterMap_congr
    rintro ⟨path, node⟩ _
    cases node with
    | leaf entry => cases entry <;> rfl
    | branch entries => rfl

theorem fileAt_path {p : List FileName × Node} {f : List FileName × FileData}
    (found : fileAt p = some f) : f.1 = p.1 := by
  unfold fileAt at found
  split at found
  · cases found
    rfl
  · cases found

theorem sortedFiles_perm {root : Root} {listing : Listing} (listed : root.Lists listing) :
    (sortedFiles root listing).Perm root.files := by
  cases root with
  | missing => exact List.Perm.refl _
  | file name data => exact List.Perm.refl _
  | directory d => exact ((List.perm_insertionSort _ listing).trans listed).filterMap fileAt

theorem sortedFiles_sorted (root : Root) (listing : Listing) :
    (sortedFiles root listing).Pairwise fun f g => sortKey f.1 ≤ sortKey g.1 := by
  cases root with
  | missing => exact List.Pairwise.nil
  | file name data => exact List.pairwise_singleton _ _
  | directory d =>
    have total : Std.Total (fun p p' : List FileName × Node => sortKey p.1 ≤ sortKey p'.1) :=
      ⟨fun p p' => le_total (sortKey p.1) (sortKey p'.1)⟩
    have transitive : IsTrans (List FileName × Node) fun p p' => sortKey p.1 ≤ sortKey p'.1 :=
      ⟨fun _ _ _ => le_trans⟩
    refine (List.pairwise_insertionSort _ listing).filterMap fileAt ?_
    intro p p' ordered f found g found'
    rw [fileAt_path found, fileAt_path found']
    exact ordered

/-- No two files have one path. -/
theorem files_nodup (root : Root) : (root.files.map Prod.fst).Nodup := by
  cases root with
  | missing => exact List.nodup_nil
  | file name data => exact List.nodup_singleton _
  | directory d =>
    have names := d.distinct
    rw [Tree.Distinct] at names
    have paths := entriesWithin_nodup d.entries names.1 names.2
    have kept : ∀ listing : Listing,
        ((listing.filterMap fileAt).map Prod.fst).Sublist (listing.map Prod.fst) := by
      intro listing
      induction listing with
      | nil => exact List.Sublist.refl _
      | cons p rest ih =>
        cases found : fileAt p with
        | none =>
          rw [List.filterMap_cons_none found]
          exact ih.trans (List.sublist_cons_self _ _)
        | some f =>
          rw [List.filterMap_cons_some found, List.map_cons, List.map_cons, fileAt_path found]
          exact ih.cons_cons _
    exact paths.sublist (kept _)

/-- Files that the rows and the triples tell apart. -/
theorem file_ext {f g : List FileName × FileData} (path : f.1 = g.1) (size : f.2.size = g.2.size)
    (content : f.2.content = g.2.content) : f = g :=
  Prod.ext path (FileData.ext size content)

theorem mem_files_iff {root root' : Root} :
    (∀ t, t ∈ root.triples ↔ t ∈ root'.triples) ↔ ∀ f, f ∈ root.files ↔ f ∈ root'.files := by
  have triple_iff : ∀ (r : Root) (f : List FileName × FileData),
      (f.1, f.2.size, f.2.content) ∈ r.triples ↔ f ∈ r.files := by
    intro r f
    constructor
    · rintro ⟨g, member, same⟩
      obtain ⟨path, sizes, contents⟩ : f.1 = g.1 ∧ f.2.size = g.2.size ∧
          f.2.content = g.2.content := by simpa using same
      rw [file_ext path sizes contents]
      exact member
    · intro member
      exact ⟨f, member, rfl⟩
  constructor
  · intro same f
    rw [← triple_iff, ← triple_iff]
    exact same _
  · intro same t
    constructor
    · rintro ⟨f, member, rfl⟩
      exact (triple_iff root' f).mpr ((same f).mp member)
    · rintro ⟨f, member, rfl⟩
      exact (triple_iff root f).mpr ((same f).mpr member)

theorem eq_of_map_eq {f : α → β} {xs ys : List α} (same : xs.map f = ys.map f)
    (apart : ∀ x ∈ xs, ∀ y ∈ ys, f x = f y → x = y) : xs = ys := by
  induction xs generalizing ys with
  | nil => exact (List.map_eq_nil_iff.mp same.symm).symm
  | cons x rest ih =>
    cases ys with
    | nil => cases same
    | cons y rest' =>
      obtain ⟨first, later⟩ := List.cons.inj same
      rw [apart x List.mem_cons_self y List.mem_cons_self first,
        ih later fun a member b member' =>
          apart a (List.mem_cons_of_mem x member) b (List.mem_cons_of_mem y member')]

/-- What is hashed: the bytes of each file, and the text of the rows. -/
def hashed (sha256 : Bytes → Digest) (root : Root) (listing : Listing) : Set Bytes :=
  {m | m = utf8 (dumpsRows (fileManifestRows sha256 root listing)) ∨
    ∃ f ∈ root.files, m = f.2.content}

/-- The hash of a dataset is equal to that of another one exactly when they have the same
    files: the same relative paths, sizes and contents. The order of the walk is forgotten. -/
theorem dataset_sha256_eq_iff (sha256 : Bytes → Digest) (root root' : Root)
    (listing listing' : Listing) (listed : root.Lists listing) (listed' : root'.Lists listing')
    (collisionFree : Set.InjOn sha256
      (hashed sha256 root listing ∪ hashed sha256 root' listing')) :
    computeDatasetSha256 sha256 root listing = computeDatasetSha256 sha256 root' listing' ↔
      ∀ t, t ∈ root.triples ↔ t ∈ root'.triples := by
  have perm := sortedFiles_perm listed
  have perm' := sortedFiles_perm listed'
  rw [mem_files_iff]
  constructor
  · intro equal f
    have blobs := utf8_injective (collisionFree (Or.inl (Or.inl rfl)) (Or.inr (Or.inl rfl))
      (hex_injective equal))
    have rows := dumpsRows_injective blobs
    rw [rows_eq, rows_eq] at rows
    have files : sortedFiles root listing = sortedFiles root' listing' := by
      refine eq_of_map_eq rows ?_
      intro g member g' member' row
      have contents : g.2.content = g'.2.content := by
        have digests := hex_injective (congrArg Row.sha256 row)
        rw [feed_all (by decide), feed_all (by decide)] at digests
        exact collisionFree (Or.inl (Or.inr ⟨g, perm.subset member, rfl⟩))
          (Or.inr (Or.inr ⟨g', perm'.subset member', rfl⟩)) digests
      exact file_ext (pathText_injective (congrArg Row.path row)) (congrArg Row.size row) contents
    rw [← perm.mem_iff, files, perm'.mem_iff]
  · intro same
    have files : sortedFiles root listing = sortedFiles root' listing' := by
      refine eq_of_sorted (perm.trans (List.Perm.trans ?_ perm'.symm)) ?_
        (sortedFiles_sorted root listing) (sortedFiles_sorted root' listing')
      · exact (List.perm_ext_iff_of_nodup (files_nodup root).of_map
          (files_nodup root').of_map).mpr same
      · intro f member g member' key
        exact List.inj_on_of_nodup_map (files_nodup root) (perm.subset member)
          (perm.subset member') (sortKey_injective key)
    unfold computeDatasetSha256
    rw [rows_eq, rows_eq, files]

def sumDigest (m : Bytes) : Digest := ⟨List.replicate 32 (m.foldl (· + ·) 0), List.length_replicate⟩

def letterName (c : Char) (clean : c ≠ '/') : FileName where
  chars := [.char c]
  nonempty := List.cons_ne_nil _ _
  noSlash := by simpa using Ne.symm clean

def emptyFile : FileData := ⟨0, [], by decide⟩

/-- A directory of one empty file. -/
def oneFile (name : FileName) : Directory where
  entries := [(name, .leaf (.file emptyFile))]
  distinct := by simp [Tree.Distinct, DistinctEntries]

def oneFileListing (name : FileName) : Listing := [([name], .leaf (.file emptyFile))]

theorem oneFile_lists (name : FileName) :
    (Root.directory (oneFile name)).Lists (oneFileListing name) := by
  simp [Root.Lists, oneFile, oneFileListing, entriesWithin, Tree.within]

theorem oneFile_files (name : FileName) :
    (Root.directory (oneFile name)).files = [([name], emptyFile)] := by
  simp [Root.files, oneFile, entriesWithin, Tree.within, fileAt]

def oneFileText (name : FileName) : Bytes :=
  utf8 (dumpsRows [⟨name.chars, 0, (sumDigest []).hex⟩])

theorem oneFile_hashed {name : FileName} {m : Bytes}
    (member : m ∈ hashed sumDigest (.directory (oneFile name)) (oneFileListing name)) :
    m = [] ∨ m = oneFileText name := by
  rcases member with rfl | ⟨f, file, rfl⟩
  · right
    have digest : sha256File sumDigest [] = (sumDigest []).hex := by
      unfold sha256File
      rw [feed_all (by decide), List.nil_append]
    rw [rows_eq]
    simp [sortedFiles, oneFileListing, fileAt, rowOf, emptyFile, digest, pathText, oneFileText]
  · left
    rw [oneFile_files, List.mem_singleton] at file
    rw [file]
    rfl

theorem injOn_three {f : α → β} {x y z : α} (xy : f x ≠ f y) (xz : f x ≠ f z) (yz : f y ≠ f z) :
    Set.InjOn f {x, y, z} := by
  rintro m (rfl | rfl | rfl) m' (rfl | rfl | rfl) same <;>
    first
    | rfl
    | exact (xy same).elim
    | exact (xy same.symm).elim
    | exact (xz same).elim
    | exact (xz same.symm).elim
    | exact (yz same).elim
    | exact (yz same.symm).elim

/-- Renaming the only file changes the hash. -/
theorem renamed_file_sha256 :
    let a := letterName 'a' (by decide)
    let b := letterName 'b' (by decide)
    computeDatasetSha256 sumDigest (.directory (oneFile a)) (oneFileListing a) ≠
      computeDatasetSha256 sumDigest (.directory (oneFile b)) (oneFileListing b) := by
  intro a b same
  have apart : ∀ m m' : Bytes, m.foldl (· + ·) 0 ≠ m'.foldl (· + ·) 0 →
      sumDigest m ≠ sumDigest m' := by
    intro m m' sums digests
    exact sums (List.cons.inj (congrArg Digest.bytes digests)).1
  have injective : Set.InjOn sumDigest {[], oneFileText a, oneFileText b} :=
    injOn_three (apart _ _ (by decide +kernel)) (apart _ _ (by decide +kernel))
      (apart _ _ (by decide +kernel))
  have collisionFree : Set.InjOn sumDigest
      (hashed sumDigest (.directory (oneFile a)) (oneFileListing a) ∪
        hashed sumDigest (.directory (oneFile b)) (oneFileListing b)) := by
    refine injective.mono ?_
    rintro m (here | here)
    · rcases oneFile_hashed here with rfl | rfl <;> simp
    · rcases oneFile_hashed here with rfl | rfl <;> simp
  have triples := (dataset_sha256_eq_iff sumDigest _ _ _ _ (oneFile_lists a) (oneFile_lists b)
    collisionFree).mp same
  have moved := mem_files_iff.mp triples ([a], emptyFile)
  rw [oneFile_files, oneFile_files] at moved
  have names : a = b := by simpa using moved
  exact absurd (congrArg FileName.chars names) (by decide)

end HorizonRic.DatasetLineage

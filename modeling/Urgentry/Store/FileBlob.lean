import Urgentry.Internal.FilePath
import Urgentry.Sqlite.RetentionEvents

/-!
# The files of uploads

`FileBlobStore` keeps an object in a file. The key of the object is a path below the directory of
the store; it is cleaned, and refused where it leads out of the directory. Two uploads of a client
go through it, with keys that contain texts the client has chosen: the segments of a replay
(`SaveReplayRecording`) and the attachments of an envelope (`saveAttachmentWithID`, with an
attachment store and without one).

The first two sanitise each text before it becomes a component of the key. Sanitising replaces the
slash, the backslash and the colon by an underscore, so different texts can become one component;
and it leaves `.` and `..` alone, which cleaning then takes for the folder itself and for the one
above. Without an attachment store the texts go into the key as they are.

## What is left out

The directory is an absolute path, as `filepath.Abs` gives it, and not the root, where the store
refuses every key. The file system takes every path other than that of the directory. The statement
that `SaveReplayRecording` and `SaveAttachment` run after the object is written records the key and
does not choose the file.

## Main results

* `FileBlobStore.put_ok_iff`: which file an object is written to;
* `saveReplayRecording_ok_iff`: the folder of a segment, as a table over the sanitised ids;
* `uploads_separated_iff`: when different segments are different files, and when the file of an
  upload lies under the prefix of its project. -/

namespace Urgentry

open FilePath GoText List

/-! ## The store -/

/-- `FileBlobStore`: the names of its directory. -/
structure FileBlobStore where
  names : List Name
  isName : ∀ n ∈ names, IsName n
  ne_nil : names ≠ []

/-- The errors of `Put`. -/
inductive BlobError
  /-- `invalid blob key: %q` -/
  | invalidKey (key : List Char)
  /-- `path traversal attempt: %q` -/
  | traversal (key : List Char)
  /-- The path is that of a directory. -/
  | isDirectory
deriving DecidableEq

namespace FileBlobStore

variable (store : FileBlobStore)

def dir : List Char := abs store.names

/-- `filepath.Join(s.dir, path)`. -/
def join (path : List Char) : List Char := clean (store.dir ++ '/' :: path)

/-- `safePath`. -/
def safePath (key : List Char) : Except BlobError (List Char) :=
  let cleaned := clean key
  if dotdot <+: cleaned ∨ isAbs cleaned then .error (.invalidKey key)
  else
    let full := store.join cleaned
    if ¬(store.dir ++ ['/']) <+: full ∧ full ≠ store.dir then .error (.traversal key)
    else .ok full

/-- `Put`, with the file that it writes. -/
def put (key : List Char) : Except BlobError (List Char) :=
  match store.safePath key with
  | .error e => .error e
  | .ok path => if path = store.dir then .error .isDirectory else .ok path

/-- A file lies under a prefix of keys, after path cleaning. -/
def Under (keys file : List Char) : Prop := (store.join keys ++ ['/']) <+: file
deriving Decidable

end FileBlobStore

/-! ## The keys -/

/-- `segment-%06d.rrweb`. -/
def segmentName (segmentID : ℕ) : Name :=
  let digits := Nat.toDigits 10 segmentID
  "segment-".toList ++ (List.replicate (6 - digits.length) '0' ++ digits) ++ ".rrweb".toList

variable (projectID : String)

/-- `replays/<project>`. -/
def replayPrefix : List Char :=
  join ["replays".toList, (sanitizeKeySegment projectID).toList]

/-- `replays/<project>/<replay>/segment-%06d.rrweb`. -/
def replayObjectKey (projectID replayID : String) (segmentID : ℕ) : List Char :=
  join ["replays".toList, (sanitizeKeySegment projectID).toList,
    (sanitizeKeySegment replayID).toList,
    segmentName segmentID]

/-- `attachments/<project>`. -/
def attachmentPrefix : List Char :=
  join ["attachments".toList, (sanitizeKeySegment projectID).toList]

/-- `attachmentObjectKey`. -/
def attachmentObjectKey (projectID eventID attachmentID : String) : List Char :=
  join ["attachments".toList, (sanitizeKeySegment projectID).toList,
    (sanitizeKeySegment eventID).toList, (sanitizeKeySegment attachmentID).toList]

/-- The prefix of a project where there is no attachment store. -/
def rawAttachmentPrefix : List Char :=
  join ["attachments".toList, projectID.toList]

/-- The key where there is no attachment store. -/
def rawAttachmentKey (projectID eventID filename : String) : List Char :=
  join ["attachments".toList, projectID.toList, eventID.toList, filename.toList]

/-! ## The uploads -/

/-- The errors of an upload. -/
inductive UploadError
  /-- `invalid replay segment` -/
  | invalidSegment
  /-- `attachment project_id and event_id are required` -/
  | missingIds
  | blob (e : BlobError)
deriving DecidableEq

variable (store : FileBlobStore)

/-- The outcome of `Put` in an upload. -/
def FileBlobStore.upload (key : List Char) : Except UploadError (List Char) :=
  (store.put key).mapError .blob

/-- `SaveReplayRecording`, with the file that it writes. -/
def saveReplayRecording (projectID replayID : String) (segmentID : ℤ)
    (payload : Body) : Except UploadError (List Char) :=
  let projectID := trimSpace projectID
  let replayID := trimSpace replayID
  if projectID = "" ∨ replayID = "" ∨ segmentID < 0 ∨ payload.length = 0 then .error .invalidSegment
  else store.upload (replayObjectKey projectID replayID segmentID.toNat)

/-- The id of an attachment; a blank one is replaced by `id.New()`. -/
def usedAttachmentID (newID attachmentID : String) : String :=
  if attachmentID = "" then newID else attachmentID

/-- `SaveAttachment`, with the file that it writes. -/
def saveAttachment (newID projectID eventID attachmentID : String) :
    Except UploadError (List Char) :=
  if projectID = "" ∨ eventID = "" then .error .missingIds
  else store.upload (attachmentObjectKey projectID eventID (usedAttachmentID newID attachmentID))

/-- The name of an attachment. -/
def attachmentFilename (filename : String) : String :=
  if filename = "" then "unnamed" else filename

/-- `saveAttachmentWithID`, with the file that it writes. -/
def saveAttachmentWithID (attachmentStore : Bool)
    (newID projectID eventID attachmentID filename : String) : Except UploadError (List Char) :=
  if attachmentStore then saveAttachment store newID projectID eventID attachmentID
  else store.upload (rawAttachmentKey projectID eventID (attachmentFilename filename))

/-! ## Which file an object is written to -/

namespace FileBlobStore

variable (store : FileBlobStore)

theorem no_slash : ∀ n ∈ store.names, '/' ∉ n := fun n hn => (store.isName n hn).no_slash

/-- **The file of a key.** The components that are left of the key are put below the directory,
unless they start with two dots or there are none. -/
theorem put_ok_iff {key : List Char} (file : List Char) (hkey : isAbs key = false) :
    store.put key = .ok file ↔
      ¬dotdot <+: FilePath.join (resolve false (components key)) ∧
      resolve false (components key) ≠ [] ∧
      file = abs (store.names ++ resolve false (components key)) := by
  generalize hleft : resolve false (components key) = left
  have hclean : clean key = if left = [] then dot else FilePath.join left := by
    simp [clean, hkey, hleft]
  by_cases hnil : left = []
  · -- the key leads to the directory
    rw [if_pos hnil] at hclean
    have hfull : store.join dot = store.dir := by
      have hstart : dotdot ∉ (components dot).foldl (push false) [] := by decide
      have hdot : resolve false (components dot) = [] := by decide
      rw [join, dir, clean_abs_append store.isName store.ne_nil hstart, hdot, append_nil]
    have hallowed : ¬(dotdot <+: dot ∨ isAbs dot = true) := by decide
    have hput : store.put key = .error .isDirectory := by
      simp [put, safePath, hclean, hfull, hallowed]
    simp [hput, hnil]
  · rw [if_neg hnil] at hclean
    by_cases hup : dotdot <+: FilePath.join left
    · have hput : store.put key = .error (.invalidKey key) := by
        simp [put, safePath, hclean, hup]
      simp [hput, hup]
    · have hnames : ∀ n ∈ left, IsName n := by
        rw [← hleft] at hup ⊢
        exact isName_resolve hup
      have hrelative : isAbs (FilePath.join left) = false := by
        obtain ⟨first, rest, rfl⟩ := exists_cons_of_ne_nil hnil
        exact isAbs_join_cons rest (hnames first mem_cons_self)
      have hfull : store.join (FilePath.join left) = abs (store.names ++ left) := by
        rw [join, dir, clean_abs_append_names store.isName store.ne_nil hnames hnil]
      have hslash : ∀ n ∈ store.names ++ left, '/' ∉ n :=
        forall_mem_append.mpr ⟨store.no_slash, fun n h => (hnames n h).no_slash⟩
      have hbelow : (store.dir ++ ['/']) <+: abs (store.names ++ left) :=
        (abs_prefix_iff store.no_slash store.ne_nil hslash
          (append_ne_nil_of_left_ne_nil store.ne_nil left)).mpr ⟨left, hnil, rfl⟩
      have hdir : abs (store.names ++ left) ≠ store.dir := by
        rw [dir, Ne, abs_inj hslash (append_ne_nil_of_left_ne_nil store.ne_nil left)
          store.no_slash store.ne_nil, append_right_eq_self]
        exact hnil
      have hput : store.put key = .ok (abs (store.names ++ left)) := by
        simp [put, safePath, hclean, hup, hrelative, hfull, hbelow, hdir]
      simp [hput, hup, hnil, eq_comm]

end FileBlobStore

/-! ## The components of the keys -/

/-- A sanitised id is a component: it is not empty and has no slash. -/
theorem sanitizeKeySegment_component (s : String) :
    (sanitizeKeySegment s).toList ≠ [] ∧ '/' ∉ (sanitizeKeySegment s).toList := by
  unfold sanitizeKeySegment
  generalize trimSpace s = trimmed
  by_cases hblank : trimmed = ""
  · rw [if_pos hblank]
    decide
  · rw [if_neg hblank, String.toList_ofList]
    refine ⟨?_, ?_⟩
    · simpa using hblank
    · rw [mem_map]
      rintro ⟨c, -, hc⟩
      split_ifs at hc with hslash
      · exact absurd hc (by decide)
      · exact hslash (.inl hc)

@[simp]
theorem sanitizeKeySegment_trimSpace (s : String) :
    sanitizeKeySegment (trimSpace s) = sanitizeKeySegment s := by
  unfold sanitizeKeySegment
  rw [trimSpace_trimSpace]

theorem slash_not_mem_segmentName (n : ℕ) : '/' ∉ segmentName n := by
  have hdigits : '/' ∉ Nat.toDigits 10 n := fun h =>
    absurd (isDigit_of_mem_toDigits h) (by decide)
  unfold segmentName
  simp [hdigits]

theorem isName_segmentName (n : ℕ) : IsName (segmentName n) := by
  have hfirst : (segmentName n).head? = some 's' := rfl
  refine ⟨?_, ?_, ?_, slash_not_mem_segmentName n⟩ <;> intro h <;> rw [h] at hfirst <;>
    exact absurd hfirst (by decide)

/-- Different segments have different names, although the number is padded. -/
theorem segmentName_inj {m n : ℕ} (h : segmentName m = segmentName n) : m = n := by
  unfold segmentName at h
  have hpadded := append_cancel_left (append_cancel_right h)
  have hvalue := congrArg (fun cs => Nat.ofDigitChars 10 cs 0) hpadded
  simpa [Nat.ofDigitChars_append] using hvalue

/-! ## The folder of a replay -/

/-- The names that are left of `replays/<project>/<replay>`: a `.` names no folder, and `..` goes
back to the one above. -/
def folderNames (project replay : Name) : List Name :=
  if project = dotdot then
    if replay = dot then [] else [replay]
  else if project = dot then
    if replay = dotdot then [] else if replay = dot then ["replays".toList]
    else ["replays".toList, replay]
  else
    if replay = dotdot then ["replays".toList] else if replay = dot then ["replays".toList, project]
    else ["replays".toList, project, replay]

theorem foldl_folderNames {project replay : Name} (hproject : project ≠ [] ∧ '/' ∉ project)
    (hreplay : replay ≠ [] ∧ '/' ∉ replay) :
    ["replays".toList, project, replay].foldl (push false) [] =
      (folderNames project replay).reverse := by
  have hreplays : IsName "replays".toList := by decide
  have hdots : dot ≠ dotdot := by decide
  rw [foldl_cons, push_name hreplays]
  rcases component_cases hproject.2 with hskip | rfl | hname
  · obtain rfl := hskip.resolve_left hproject.1
    rw [foldl_cons, push_skip hskip]
    rcases component_cases hreplay.2 with hskip' | rfl | hname'
    · obtain rfl := hskip'.resolve_left hreplay.1
      rw [foldl_cons, push_skip hskip']
      simp [folderNames, hdots]
    · rw [foldl_cons, push_up hreplays.ne_dotdot]
      simp [folderNames, hdots]
    · rw [foldl_cons, push_name hname']
      simp [folderNames, hdots, hname'.ne_dot, hname'.ne_dotdot]
  · rw [foldl_cons, push_up hreplays.ne_dotdot]
    rcases component_cases hreplay.2 with hskip | rfl | hname'
    · obtain rfl := hskip.resolve_left hreplay.1
      rw [foldl_cons, push_skip hskip]
      simp [folderNames]
    · rw [foldl_cons, push_up_nil]
      simp [folderNames, hdots.symm]
    · rw [foldl_cons, push_name hname']
      simp [folderNames, hname'.ne_dot]
  · rw [foldl_cons, push_name hname]
    rcases component_cases hreplay.2 with hskip | rfl | hname'
    · obtain rfl := hskip.resolve_left hreplay.1
      rw [foldl_cons, push_skip hskip]
      simp [folderNames, hname.ne_dot, hname.ne_dotdot, hdots]
    · rw [foldl_cons, push_up hname.ne_dotdot]
      simp [folderNames, hname.ne_dot, hname.ne_dotdot]
    · rw [foldl_cons, push_name hname']
      simp [folderNames, hname.ne_dot, hname.ne_dotdot, hname'.ne_dot, hname'.ne_dotdot]

/-- What is left of the key starts with two dots only where the project is `..` and the replay
starts with two dots. -/
theorem dotdot_prefix_folder_iff {project replay : Name}
    (hreplay : replay ≠ [] ∧ '/' ∉ replay) (n : ℕ) :
    dotdot <+: join (folderNames project replay ++ [segmentName n]) ↔
      project = dotdot ∧ dotdot <+: replay := by
  have hreplays : ¬dotdot <+: "replays".toList := by decide
  have hfirst : ∀ rest, ¬dotdot <+: join ("replays".toList :: rest) := by
    intro rest
    rwa [dotdot_prefix_join_iff rest (by decide)]
  have hsegment : ¬dotdot <+: join [segmentName n] := by
    rintro ⟨tail, htail⟩
    have hhead : some '.' = some 's' := congrArg head? htail
    exact absurd hhead (by decide)
  unfold folderNames
  by_cases hup : project = dotdot
  · rw [if_pos hup]
    by_cases hdot : replay = dot
    · have hnot : ¬dotdot <+: dot := by decide
      simp [hdot, hnot, hsegment]
    · rw [if_neg hdot, singleton_append]
      rcases component_cases hreplay.2 with hskip | rfl | hname
      · exact absurd hskip (not_or.mpr ⟨hreplay.1, hdot⟩)
      · simp [hup]
      · rw [dotdot_prefix_join_iff _ hname]
        simp [hup]
  · rw [if_neg hup]
    refine iff_of_false ?_ (fun h => hup h.1)
    split
    next => split <;> [exact hsegment; (split <;> exact hfirst _)]
    next => split <;> [exact hfirst _; (split <;> exact hfirst _)]

/-- The folder of `replays/<project>/<replay>`, unless the key leads out of the directory. -/
def folderOf (project replay : Name) : Option (List Name) :=
  if project = dotdot ∧ dotdot <+: replay then none else some (folderNames project replay)

/-- A triple of ids as `SaveReplayRecording` gets it. -/
structure ReplaySegmentRef where
  (projectID replayID : String)
  segmentID : ℤ
deriving DecidableEq

namespace ReplaySegmentRef

/-- The folder that a segment is written to, below the directory of the store; there is none if an
id is blank, the segment id is negative, or the key leads out of the directory. -/
def folder (ref : ReplaySegmentRef) : Option (List Name) :=
  if trimSpace ref.projectID = "" ∨ trimSpace ref.replayID = "" ∨ ref.segmentID < 0 then
    none
  else folderOf (sanitizeKeySegment ref.projectID).toList (sanitizeKeySegment ref.replayID).toList

theorem folder_eq_some_iff {ref : ReplaySegmentRef} {names : List Name} :
    ref.folder = some names ↔
      (trimSpace ref.projectID ≠ "" ∧ trimSpace ref.replayID ≠ "" ∧ 0 ≤ ref.segmentID) ∧
      ¬((sanitizeKeySegment ref.projectID).toList = dotdot ∧
        dotdot <+: (sanitizeKeySegment ref.replayID).toList) ∧
      names = folderNames (sanitizeKeySegment ref.projectID).toList
        (sanitizeKeySegment ref.replayID).toList := by
  have hrefused : (trimSpace ref.projectID = "" ∨ trimSpace ref.replayID = "" ∨
      ref.segmentID < 0) ↔ ¬(trimSpace ref.projectID ≠ "" ∧
        trimSpace ref.replayID ≠ "" ∧ 0 ≤ ref.segmentID) := by
    simp only [not_and_or, not_not, not_le]
  unfold folder folderOf
  simp only [hrefused]
  split
  next h => simp only [reduceCtorEq, h, false_and]
  next h =>
    rw [and_iff_right (not_not.mp h)]
    split
    next hup => simp only [reduceCtorEq, hup, not_true_eq_false, and_self, false_and]
    next hup => rw [and_iff_right hup, Option.some_inj, eq_comm]

/-- Whatever is uploaded for the two triples is written to different files. -/
def Separated (store : FileBlobStore) (a b : ReplaySegmentRef) : Prop :=
  ∀ payload payload' file file',
    saveReplayRecording store a.projectID a.replayID a.segmentID payload = .ok file →
    saveReplayRecording store b.projectID b.replayID b.segmentID payload' = .ok file' → file ≠ file'

end ReplaySegmentRef

@[simp]
theorem upload_ok_iff {store : FileBlobStore} {key file : List Char} :
    store.upload key = .ok file ↔ store.put key = .ok file := by
  unfold FileBlobStore.upload
  cases store.put key <;> simp [Except.mapError]

variable (projectID replayID : String)

@[simp]
theorem components_replayObjectKey (n : ℕ) :
    components (replayObjectKey projectID replayID n) =
      ["replays".toList, (sanitizeKeySegment projectID).toList,
        (sanitizeKeySegment replayID).toList] ++ [segmentName n] := by
  have hreplays : '/' ∉ "replays".toList := by decide
  refine components_join ?_ (cons_ne_nil _ _)
  simp only [forall_mem_cons, not_mem_nil, false_imp_iff, implies_true, and_true]
  exact ⟨hreplays, (sanitizeKeySegment_component projectID).2,
    (sanitizeKeySegment_component replayID).2, slash_not_mem_segmentName n⟩

variable (store : FileBlobStore)

/-- A segment is written if the ids are not blank, the number is not negative, there is a payload
and the store takes the key. -/
theorem saveReplayRecording_ok_iff_put (segmentID : ℤ) (payload : Body) (file : List Char) :
    saveReplayRecording store projectID replayID segmentID payload = .ok file ↔
      (trimSpace projectID ≠ "" ∧ trimSpace replayID ≠ "" ∧ 0 ≤ segmentID ∧ payload ≠ []) ∧
      store.put (replayObjectKey projectID replayID segmentID.toNat) = .ok file := by
  have hsame : replayObjectKey (trimSpace projectID) (trimSpace replayID)
      segmentID.toNat = replayObjectKey projectID replayID segmentID.toNat := by
    rw [replayObjectKey, sanitizeKeySegment_trimSpace, sanitizeKeySegment_trimSpace,
      replayObjectKey]
  have hrefused : (trimSpace projectID = "" ∨ trimSpace replayID = "" ∨ segmentID < 0 ∨
      payload.length = 0) ↔ ¬(trimSpace projectID ≠ "" ∧ trimSpace replayID ≠ "" ∧
        0 ≤ segmentID ∧ payload ≠ []) := by
    simp only [not_and_or, not_not, not_le, length_eq_zero_iff]
  unfold saveReplayRecording
  simp only [hrefused, hsame]
  split
  next h => simp only [reduceCtorEq, h, false_and]
  next h => rw [upload_ok_iff, and_iff_right (not_not.mp h)]

/-- **The file of a segment.** -/
theorem saveReplayRecording_ok_iff (ref : ReplaySegmentRef) (payload : Body) (file : List Char) :
    saveReplayRecording store ref.projectID ref.replayID ref.segmentID payload = .ok file ↔
      payload ≠ [] ∧ ∃ folder, ref.folder = some folder ∧
        file = abs (store.names ++ (folder ++ [segmentName ref.segmentID.toNat])) := by
  have hproject := sanitizeKeySegment_component ref.projectID
  have hreplay := sanitizeKeySegment_component ref.replayID
  have hkey : isAbs (replayObjectKey ref.projectID ref.replayID ref.segmentID.toNat) = false :=
    isAbs_join_cons _ (by decide)
  have hresolve : resolve false (components
      (replayObjectKey ref.projectID ref.replayID ref.segmentID.toNat)) =
      folderNames (sanitizeKeySegment ref.projectID).toList
        (sanitizeKeySegment ref.replayID).toList ++
        [segmentName ref.segmentID.toNat] := by
    rw [components_replayObjectKey, resolve_concat_name (isName_segmentName _), resolve,
      foldl_folderNames hproject hreplay, reverse_reverse]
  rw [saveReplayRecording_ok_iff_put, store.put_ok_iff file hkey, hresolve,
    dotdot_prefix_folder_iff hreplay]
  constructor
  · rintro ⟨⟨hp, hr, hn, hpayload⟩, hup, -, hfile⟩
    exact ⟨hpayload, _, ReplaySegmentRef.folder_eq_some_iff.mpr ⟨⟨hp, hr, hn⟩, hup, rfl⟩, hfile⟩
  · rintro ⟨hpayload, folder, hfolder, hfile⟩
    obtain ⟨⟨hp, hr, hn⟩, hup, hnames⟩ := ReplaySegmentRef.folder_eq_some_iff.mp hfolder
    rw [hnames] at hfile
    exact ⟨⟨hp, hr, hn, hpayload⟩, hup, append_ne_nil_of_right_ne_nil _ (cons_ne_nil _ _), hfile⟩

/-! ## Separation -/

theorem no_slash_folderNames {project replay : Name} (hproject : '/' ∉ project)
    (hreplay : '/' ∉ replay) : ∀ name ∈ folderNames project replay, '/' ∉ name := by
  have hreplays : '/' ∉ "replays".toList := by decide
  intro name hname
  have hcases : name = "replays".toList ∨ name = project ∨ name = replay := by
    unfold folderNames at hname
    split_ifs at hname <;> simp at hname <;> tauto
  rcases hcases with rfl | rfl | rfl
  · exact hreplays
  · exact hproject
  · exact hreplay

theorem ReplaySegmentRef.no_slash_folder {ref : ReplaySegmentRef} {folder : List Name}
    (h : ref.folder = some folder) : ∀ name ∈ folder, '/' ∉ name := by
  rw [(folder_eq_some_iff.mp h).2.2]
  exact no_slash_folderNames (sanitizeKeySegment_component ref.projectID).2
    (sanitizeKeySegment_component ref.replayID).2

/-- Two segments are one file exactly if they have one folder and one number. -/
theorem segment_file_inj {a b : ReplaySegmentRef} {folder folder' : List Name}
    (ha : a.folder = some folder) (hb : b.folder = some folder') :
    abs (store.names ++ (folder ++ [segmentName a.segmentID.toNat])) =
        abs (store.names ++ (folder' ++ [segmentName b.segmentID.toNat])) ↔
      folder = folder' ∧ a.segmentID = b.segmentID := by
  have hslash : ∀ {ref : ReplaySegmentRef} {f : List Name}, ref.folder = some f →
      ∀ n ∈ store.names ++ (f ++ [segmentName ref.segmentID.toNat]), '/' ∉ n := by
    intro ref f hf n hn
    simp only [mem_append, mem_singleton] at hn
    rcases hn with h | h | rfl
    · exact store.no_slash n h
    · exact ref.no_slash_folder hf n h
    · exact slash_not_mem_segmentName _
  have hne : ∀ f : List Name, store.names ++ f ≠ [] := fun f =>
    append_ne_nil_of_left_ne_nil store.ne_nil f
  rw [abs_inj (hslash ha) (hne _) (hslash hb) (hne _), append_right_inj]
  constructor
  · intro h
    obtain ⟨hfolder, hname⟩ := append_singleton_inj.mp h
    have hnumber := segmentName_inj hname
    have hnonneg := (ReplaySegmentRef.folder_eq_some_iff.mp ha).1.2.2
    have hnonneg' := (ReplaySegmentRef.folder_eq_some_iff.mp hb).1.2.2
    exact ⟨hfolder, by omega⟩
  · rintro ⟨rfl, hid⟩
    rw [hid]

/-- **Separation.** The files of two segments are different exactly if the segments have different
numbers, or different folders, or one of them is not written. -/
theorem separated_iff (a b : ReplaySegmentRef) :
    a.Separated store b ↔
      a.folder = none ∨ b.folder = none ∨ a.folder ≠ b.folder ∨ a.segmentID ≠ b.segmentID := by
  constructor
  · intro hseparated
    by_contra hnot
    rw [not_or, not_or, not_or, not_not, not_not] at hnot
    obtain ⟨ha, hb, hfolder, hnumber⟩ := hnot
    obtain ⟨folder, ha⟩ := Option.ne_none_iff_exists'.mp ha
    obtain ⟨folder', hb⟩ := Option.ne_none_iff_exists'.mp hb
    have hsame : folder = folder' := Option.some.inj (ha.symm.trans (hfolder.trans hb))
    refine hseparated [0] [0] _ _
      ((saveReplayRecording_ok_iff store a [0] _).mpr ⟨cons_ne_nil _ _, folder, ha, rfl⟩)
      ((saveReplayRecording_ok_iff store b [0] _).mpr ⟨cons_ne_nil _ _, folder', hb, rfl⟩)
      ((segment_file_inj store ha hb).mpr ⟨hsame, hnumber⟩)
  · intro hcond payload payload' file file' hok hok' hsame
    obtain ⟨-, folder, ha, hfile⟩ := (saveReplayRecording_ok_iff store a payload file).mp hok
    obtain ⟨-, folder', hb, hfile'⟩ := (saveReplayRecording_ok_iff store b payload' file').mp hok'
    rw [hfile, hfile'] at hsame
    obtain ⟨hfolder, hnumber⟩ := (segment_file_inj store ha hb).mp hsame
    rcases hcond with h | h | h | h
    · rw [h] at ha
      exact absurd ha (by simp)
    · rw [h] at hb
      exact absurd hb (by simp)
    · exact h (by rw [ha, hb, hfolder])
    · exact h hnumber

/-! ## Containment -/

namespace FileBlobStore

variable (store : FileBlobStore)

/-- A file lies under a prefix exactly if its names below the directory start with those of the
prefix. -/
theorem under_iff {keys : List Char} {left : List Name}
    (hstart : dotdot ∉ (components keys).foldl (push false) []) (hleft : ∀ n ∈ left, '/' ∉ n) :
    store.Under keys (abs (store.names ++ left)) ↔
      ∃ rest, rest ≠ [] ∧ left = resolve false (components keys) ++ rest := by
  have hcleaned := Cleaned.nil.foldl (slash_not_mem_of_mem_components keys)
  have hnames : ∀ n ∈ store.names ++ resolve false (components keys), '/' ∉ n :=
    forall_mem_append.mpr ⟨store.no_slash, fun n h => (hcleaned.plain n (mem_reverse.mp h)).2.2⟩
  have hfile : ∀ n ∈ store.names ++ left, '/' ∉ n :=
    forall_mem_append.mpr ⟨store.no_slash, hleft⟩
  rw [Under, join, dir, clean_abs_append store.isName store.ne_nil hstart,
    abs_prefix_iff hnames (append_ne_nil_of_left_ne_nil store.ne_nil _) hfile
      (append_ne_nil_of_left_ne_nil store.ne_nil _)]
  simp only [append_assoc, append_right_inj]

/-- **Containment.** Where the part of the key after the prefix is local, the file lies under the
prefix. -/
theorem under_of_local {keys rest file : List Char}
    (hrelative : isAbs (keys ++ '/' :: rest) = false)
    (hlocal : localFrom 0 (components rest) = true)
    (hput : store.put (keys ++ '/' :: rest) = .ok file) :
    store.Under keys file := by
  obtain ⟨hup, -, rfl⟩ := (store.put_ok_iff _ hrelative).mp hput
  have hnames := isName_resolve hup
  obtain ⟨below, hbelow, hfold⟩ := foldl_push_of_localFrom false
    ((components keys).foldl (push false) []) (slash_not_mem_of_mem_components rest)
    (not_mem_nil : dotdot ∉ ([] : List Name)) hlocal
  have hresolve : resolve false (components (keys ++ '/' :: rest)) =
      resolve false (components keys) ++ below.reverse := by
    rw [components_append, resolve, foldl_append, ← nil_append (List.foldl _ [] _), hfold,
      reverse_append, resolve]
  rw [store.under_iff]
  · exact ⟨below.reverse, by simpa using hbelow, hresolve⟩
  · intro hmem
    refine (hnames dotdot ?_).ne_dotdot rfl
    rw [hresolve]
    exact mem_append_left _ (mem_reverse.mpr hmem)
  · exact fun n hn => (hnames n hn).no_slash

/-- A key of four parts whose last two are local lies under the first two. -/
theorem under_of_local_parts {a b c d file : List Char} (ha : IsName a)
    (hlocal : localFrom 0 (components c ++ components d) = true)
    (hput : store.put (FilePath.join [a, b, c, d]) = .ok file) :
    store.Under (FilePath.join [a, b]) file := by
  have hkey : FilePath.join [a, b, c, d] = FilePath.join [a, b] ++ '/' :: FilePath.join [c, d] :=
    @join_append [a, b] [c, d] (cons_ne_nil _ _) (cons_ne_nil _ _)
  have hrelative : isAbs (FilePath.join [a, b, c, d]) = false := isAbs_join_cons _ ha
  rw [hkey] at hput hrelative
  refine store.under_of_local hrelative ?_ hput
  rw [components_join_flatMap (cons_ne_nil _ _)]
  simpa using hlocal

/-- **A way out.** A key that is left below its first name, but not below the prefix, is written to
a file that does not lie under the prefix. -/
theorem exists_put_outside (keys : List Char) {key : List Char} {first : Name} {rest : List Name}
    (hkey : isAbs key = false) (hfirst : IsName first) (hup : ¬dotdot <+: first)
    (hresolve : resolve false (components key) = first :: rest)
    (hstart : dotdot ∉ (components keys).foldl (push false) [])
    (hleaves : ∀ below, below ≠ [] → first :: rest ≠ resolve false (components keys) ++ below) :
    ∃ file, store.put key = .ok file ∧ ¬store.Under keys file := by
  have hnot : ¬dotdot <+: FilePath.join (resolve false (components key)) := by
    rwa [hresolve, dotdot_prefix_join_iff rest hfirst]
  refine ⟨_, (store.put_ok_iff _ hkey).mpr ⟨hnot, ?_, rfl⟩, ?_⟩
  · rw [hresolve]
    exact cons_ne_nil _ _
  · rw [store.under_iff hstart fun n hn => (isName_resolve hnot n hn).no_slash]
    rintro ⟨below, hbelow, heq⟩
    exact hleaves below hbelow (hresolve.symm.trans heq)

end FileBlobStore

theorem ne_append_of_length_le {names keys : List Name} (h : names.length ≤ keys.length) :
    ∀ below, below ≠ [] → names ≠ keys ++ below := by
  rintro below hbelow rfl
  have hpos := length_pos_of_ne_nil hbelow
  rw [length_append] at h
  omega

/-! ### Segments -/

theorem localFrom_segment_iff {replay : Name} (hreplay : replay ≠ [] ∧ '/' ∉ replay) (n : ℕ) :
    localFrom 0 [replay, segmentName n] = true ↔ replay ≠ dotdot := by
  rcases component_cases hreplay.2 with hskip | rfl | hname
  · obtain rfl := hskip.resolve_left hreplay.1
    have hdots : dot ≠ dotdot := by decide
    rw [localFrom_skip hskip, localFrom_name (isName_segmentName n)]
    simp [localFrom, hdots]
  · simp [localFrom, dotdot, dot]
  · rw [localFrom_name hname, localFrom_name (isName_segmentName n)]
    simp [localFrom, hname.ne_dotdot]

theorem eq_dotdot_iff (s : String) : s = ".." ↔ s.toList = dotdot := by
  have hdotdot : "..".toList = dotdot := by decide
  rw [← hdotdot, String.toList_inj]

variable (store : FileBlobStore) (newID projectID eventID attachmentID filename : String)

/-- The segments of every project lie under its prefix exactly if the replay id is not `..`. -/
theorem replay_contained_iff (replayID : String) (segmentID : ℤ) :
    (∀ projectID payload file,
      saveReplayRecording store projectID replayID segmentID payload = .ok file →
        store.Under (replayPrefix projectID) file) ↔
      segmentID < 0 ∨ sanitizeKeySegment replayID ≠ ".." := by
  have hreplay := sanitizeKeySegment_component replayID
  rw [Ne, eq_dotdot_iff]
  constructor
  · intro hcontained
    by_contra hnot
    rw [not_or, not_lt, not_not] at hnot
    obtain ⟨hnonneg, hup⟩ := hnot
    -- the segment of the project `p` is written next to the folder of the project
    have hprefix : (resolve false (components (replayPrefix "p"))).length = 2 := by decide
    have hresolve : resolve false (components (replayObjectKey "p" replayID segmentID.toNat)) =
        ["replays".toList, segmentName segmentID.toNat] := by
      rw [components_replayObjectKey, hup, resolve_concat_name (isName_segmentName _)]
      rfl
    obtain ⟨file, hput, hout⟩ := store.exists_put_outside (replayPrefix "p")
      (isAbs_join_cons _ (by decide)) (by decide) (by decide) hresolve (by decide)
      (ne_append_of_length_le hprefix.ge)
    have hreplayID : trimSpace replayID ≠ "" := by
      intro hblank
      rw [sanitizeKeySegment, hblank] at hup
      exact absurd hup (by decide)
    exact hout (hcontained "p" [0] file ((saveReplayRecording_ok_iff_put ..).mpr
      ⟨⟨by decide, hreplayID, hnonneg, cons_ne_nil _ _⟩, hput⟩))
  · rintro hcond projectID payload file hok
    obtain ⟨⟨-, -, hnonneg, -⟩, hput⟩ := (saveReplayRecording_ok_iff_put ..).mp hok
    refine store.under_of_local_parts (by decide) ?_ hput
    rw [components_of_not_mem hreplay.2, components_of_not_mem (slash_not_mem_segmentName _)]
    exact (localFrom_segment_iff hreplay _).mpr (hcond.resolve_left (not_lt.mpr hnonneg))

/-! ### Attachments -/

/-- What is left of the key of an attachment that leaves the prefix of the project `p`. -/
theorem resolve_attachment_of_not_local {event attachment : Name}
    (hevent : event ≠ [] ∧ '/' ∉ event) (hattachment : attachment ≠ [] ∧ '/' ∉ attachment)
    (hlocal : localFrom 0 [event, attachment] = false)
    (hup : ¬(event = dotdot ∧ attachment = dotdot)) :
    ∃ rest, rest.length ≤ 1 ∧
      resolve false ["attachments".toList, ['p'], event, attachment] =
        "attachments".toList :: rest := by
  have hp : IsName ['p'] := by decide
  rw [resolve, foldl_cons, foldl_cons, push_name hp]
  rcases component_cases hevent.2 with hskip | rfl | hname
  · rw [foldl_cons, push_skip hskip]
    rw [localFrom_skip hskip] at hlocal
    rcases component_cases hattachment.2 with hskip' | rfl | hname'
    · rw [foldl_cons, push_skip hskip']
      exact ⟨[['p']], le_rfl, rfl⟩
    · rw [foldl_cons]
      exact ⟨[], Nat.zero_le 1, rfl⟩
    · rw [localFrom_name hname'] at hlocal
      exact absurd hlocal (by decide)
  · rw [foldl_cons]
    rcases component_cases hattachment.2 with hskip' | rfl | hname'
    · rw [foldl_cons, push_skip hskip']
      exact ⟨[], Nat.zero_le 1, rfl⟩
    · exact absurd ⟨rfl, rfl⟩ hup
    · rw [foldl_cons, push_name hname']
      exact ⟨[attachment], le_rfl, rfl⟩
  · rw [foldl_cons, push_name hname]
    rw [localFrom_name hname] at hlocal
    rcases component_cases hattachment.2 with hskip' | rfl | hname'
    · rw [localFrom_skip hskip'] at hlocal
      exact absurd hlocal (by decide)
    · rw [foldl_cons, push_up hname.ne_dotdot]
      exact ⟨[['p']], le_rfl, rfl⟩
    · rw [localFrom_name hname'] at hlocal
      exact absurd hlocal (by decide)

theorem components_attachmentObjectKey :
    components (attachmentObjectKey projectID eventID attachmentID) =
      ["attachments".toList, (sanitizeKeySegment projectID).toList,
        (sanitizeKeySegment eventID).toList, (sanitizeKeySegment attachmentID).toList] := by
  have hattachments : '/' ∉ "attachments".toList := by decide
  refine components_join ?_ (cons_ne_nil _ _)
  simp only [forall_mem_cons, not_mem_nil, false_imp_iff, implies_true, and_true]
  exact ⟨hattachments, (sanitizeKeySegment_component projectID).2,
    (sanitizeKeySegment_component eventID).2, (sanitizeKeySegment_component attachmentID).2⟩

theorem isAbs_attachmentObjectKey :
    isAbs (attachmentObjectKey projectID eventID attachmentID) = false :=
  isAbs_join_cons _ (by decide)

/-- Two steps up from the folder of a project, there is no file to write. -/
theorem put_attachment_up_up {projectID eventID attachmentID : String}
    (hevent : (sanitizeKeySegment eventID).toList = dotdot)
    (hattachment : (sanitizeKeySegment attachmentID).toList = dotdot) (file : List Char) :
    store.put (attachmentObjectKey projectID eventID attachmentID) ≠ .ok file := by
  have hproject := sanitizeKeySegment_component projectID
  rw [Ne, store.put_ok_iff file (isAbs_attachmentObjectKey ..),
    components_attachmentObjectKey, hevent,
    hattachment]
  rintro ⟨hup, hne, -⟩
  rw [resolve, foldl_cons] at hup hne
  rcases component_cases hproject.2 with hskip | hdotdot | hname
  · rw [foldl_cons, push_skip hskip] at hup
    exact hup (by decide)
  · rw [hdotdot] at hup
    exact hup (by decide)
  · rw [foldl_cons, push_name hname, foldl_cons, push_up hname.ne_dotdot] at hne
    exact hne (by decide)

theorem saveAttachmentWithID_store_ok_iff
    (newID projectID eventID attachmentID filename : String) (file : List Char) :
    saveAttachmentWithID store true newID projectID eventID attachmentID filename = .ok file ↔
      (projectID ≠ "" ∧ eventID ≠ "") ∧
      store.put (attachmentObjectKey projectID eventID (usedAttachmentID newID attachmentID)) =
        .ok file := by
  unfold saveAttachmentWithID saveAttachment
  rw [if_pos rfl]
  by_cases hmissing : projectID = "" ∨ eventID = ""
  · rw [if_pos hmissing]
    simp only [reduceCtorEq, false_iff, not_and]
    exact fun h => absurd hmissing (not_or.mpr h)
  · rw [if_neg hmissing, upload_ok_iff, and_iff_right (not_or.mp hmissing)]

/-- With an attachment store, the attachments of every project lie under its prefix exactly if the
sanitised ids of the event and of the attachment stay below it, or are both `..`, where no file is
written. -/
theorem attachment_contained_iff :
    (∀ projectID file,
        saveAttachmentWithID store true newID projectID eventID attachmentID filename = .ok file →
        store.Under (attachmentPrefix projectID) file) ↔
      eventID = "" ∨
      localFrom 0 [(sanitizeKeySegment eventID).toList,
        (sanitizeKeySegment (usedAttachmentID newID attachmentID)).toList] = true ∨
      sanitizeKeySegment eventID = ".." ∧
        sanitizeKeySegment (usedAttachmentID newID attachmentID) = ".." := by
  have hevent := sanitizeKeySegment_component eventID
  have hused := sanitizeKeySegment_component (usedAttachmentID newID attachmentID)
  rw [eq_dotdot_iff (sanitizeKeySegment eventID),
    eq_dotdot_iff (sanitizeKeySegment (usedAttachmentID newID attachmentID))]
  constructor
  · intro hcontained
    by_contra hnot
    rw [not_or, not_or, Bool.not_eq_true] at hnot
    obtain ⟨hne, hlocal, hup⟩ := hnot
    obtain ⟨rest, hrest, hresolve⟩ := resolve_attachment_of_not_local hevent hused hlocal hup
    have hp : (sanitizeKeySegment "p").toList = ['p'] := by decide
    rw [← hp, ← components_attachmentObjectKey "p" eventID] at hresolve
    obtain ⟨file, hput, hout⟩ := store.exists_put_outside (attachmentPrefix "p")
      (isAbs_attachmentObjectKey ..) (by decide) (by decide) hresolve (by decide)
      (ne_append_of_length_le (Nat.succ_le_succ hrest))
    exact hout
      (hcontained "p" file ((saveAttachmentWithID_store_ok_iff ..).mpr ⟨⟨by decide, hne⟩, hput⟩))
  · rintro hcond projectID file hok
    obtain ⟨⟨-, hne⟩, hput⟩ := (saveAttachmentWithID_store_ok_iff ..).mp hok
    rcases hcond with h | h | h
    · exact absurd h hne
    · refine store.under_of_local_parts (by decide) ?_ hput
      rwa [components_of_not_mem hevent.2, components_of_not_mem hused.2]
    · exact absurd hput (put_attachment_up_up store h.1 h.2 file)

/-! ### Attachments without an attachment store -/

theorem components_rawAttachmentPrefix (projectID : String) :
    components (rawAttachmentPrefix projectID) =
      "attachments".toList :: components projectID.toList := by
  have hattachments : components "attachments".toList = ["attachments".toList] := by decide
  rw [rawAttachmentPrefix, components_join_flatMap (cons_ne_nil _ _)]
  simp only [flatMap_cons, flatMap_nil, append_nil, hattachments, singleton_append]

/-- Components that are not local lead the attachment of some project out of its prefix: of one
whose id is a path with a name that the components do not use. -/
theorem exists_raw_attachment_outside {eventID filename : String}
    (hlocal : localFrom 0 (components eventID.toList ++ components filename.toList) = false) :
    ∃ projectID file, store.put (rawAttachmentKey projectID eventID filename) = .ok file ∧
      ¬store.Under (rawAttachmentPrefix projectID) file := by
  have hcs : ∀ c ∈ components eventID.toList ++ components filename.toList, '/' ∉ c :=
    forall_mem_append.mpr ⟨slash_not_mem_of_mem_components _, slash_not_mem_of_mem_components _⟩
  obtain ⟨q, hname, hq⟩ :=
    exists_isName_not_mem (components eventID.toList ++ components filename.toList)
  generalize hrest : components eventID.toList ++ components filename.toList = cs at *
  have hfirst : IsName "attachments".toList ∧ ¬dotdot <+: "attachments".toList := by decide
  obtain ⟨projectID, hproject⟩ : ∃ projectID : String,
      components projectID.toList = replicate (cs.length + 1) q := by
    refine ⟨String.ofList (join (replicate (cs.length + 1) q)), ?_⟩
    rw [String.toList_ofList, components_join ?_ (by simp)]
    intro n hn
    rw [eq_of_mem_replicate hn]
    exact hname.no_slash
  have hbase : (components (rawAttachmentPrefix projectID)).foldl (push false) [] =
      replicate (cs.length + 1) q ++ ["attachments".toList] := by
    rw [components_rawAttachmentPrefix, hproject, foldl_cons, push_name hfirst.1,
      foldl_push_names, reverse_replicate]
    intro n hn
    rwa [eq_of_mem_replicate hn]
  have hfold : (components (rawAttachmentKey projectID eventID filename)).foldl (push false) [] =
      cs.foldl (push false) (replicate (cs.length + 1) q ++ ["attachments".toList]) := by
    have hafter : components (rawAttachmentKey projectID eventID filename) =
        components (rawAttachmentPrefix projectID) ++ cs := by
      rw [rawAttachmentKey, rawAttachmentPrefix, components_join_flatMap (cons_ne_nil _ _),
        components_join_flatMap (cons_ne_nil _ _), ← hrest]
      simp
    rw [hafter, foldl_append, hbase]
  -- the id is longer than the components can go up, so the key stays below `attachments`
  obtain ⟨above, habove⟩ := foldl_push_bottom (replicate (cs.length + 1) q)
    "attachments".toList hcs (by simp)
  have hresolve : resolve false (components (rawAttachmentKey projectID eventID filename)) =
      "attachments".toList :: above.reverse := by
    rw [resolve, hfold, habove, reverse_append, reverse_singleton, singleton_append]
  refine ⟨projectID,
    store.exists_put_outside _ (isAbs_join_cons _ hfirst.1) hfirst.1 hfirst.2 hresolve
    ?_ fun below hbelow heq => ?_⟩
  · rw [hbase]
    simp only [mem_append, mem_singleton, not_or]
    exact ⟨fun h => hname.ne_dotdot (eq_of_mem_replicate h).symm, hfirst.1.ne_dotdot.symm⟩
  · rw [← hresolve, resolve, resolve, hfold, hbase, ← reverse_reverse below, ← reverse_append,
      reverse_inj] at heq
    exact foldl_push_ne_of_not_localFrom hcs (not_mem_nil : dotdot ∉ ([] : List Name)) hq hname
      hlocal (by simpa using hbelow) heq

/-- Without an attachment store, the attachments of every project lie under its prefix exactly if
the components of the event id and of the file name stay below it. -/
theorem raw_attachment_contained_iff :
    (∀ projectID file,
        saveAttachmentWithID store false newID projectID eventID attachmentID filename = .ok file →
        store.Under (rawAttachmentPrefix projectID) file) ↔
      localFrom 0 (components eventID.toList ++
        components (attachmentFilename filename).toList) = true := by
  have hok : ∀ projectID file,
      saveAttachmentWithID store false newID projectID eventID attachmentID filename = .ok file ↔
        store.put
          (rawAttachmentKey projectID eventID (attachmentFilename filename)) = .ok file := by
    intro projectID file
    unfold saveAttachmentWithID
    rw [if_neg Bool.false_ne_true, upload_ok_iff]
  simp only [hok]
  constructor
  · intro hcontained
    by_contra hnot
    rw [Bool.not_eq_true] at hnot
    obtain ⟨projectID, file, hput, hunder⟩ := exists_raw_attachment_outside store hnot
    exact hunder (hcontained projectID file hput)
  · intro hlocal projectID file hput
    exact store.under_of_local_parts (by decide) hlocal hput

/-! ## The uploads of clients -/

/-- **Separation and containment of uploads.** -/
theorem uploads_separated_iff (store : FileBlobStore) :
    (∀ a b : ReplaySegmentRef, a.Separated store b ↔
      a.folder = none ∨ b.folder = none ∨ a.folder ≠ b.folder ∨ a.segmentID ≠ b.segmentID) ∧
    (∀ replayID segmentID, (∀ projectID payload file,
        saveReplayRecording store projectID replayID segmentID payload = .ok file →
        store.Under (replayPrefix projectID) file) ↔
          segmentID < 0 ∨ sanitizeKeySegment replayID ≠ "..") ∧
    (∀ newID eventID attachmentID filename, (∀ projectID file,
        saveAttachmentWithID store true newID projectID eventID attachmentID filename = .ok file →
        store.Under (attachmentPrefix projectID) file) ↔ eventID = "" ∨
      localFrom 0 [(sanitizeKeySegment eventID).toList,
        (sanitizeKeySegment (usedAttachmentID newID attachmentID)).toList] = true ∨
      sanitizeKeySegment eventID = ".." ∧
        sanitizeKeySegment (usedAttachmentID newID attachmentID) = "..") ∧
    ∀ newID eventID attachmentID filename, (∀ projectID file,
        saveAttachmentWithID store false newID projectID eventID attachmentID filename = .ok file →
        store.Under (rawAttachmentPrefix projectID) file) ↔
      localFrom 0
        (components eventID.toList ++ components (attachmentFilename filename).toList) = true :=
  ⟨separated_iff store, replay_contained_iff store, attachment_contained_iff store,
    raw_attachment_contained_iff store⟩

/-- A store in the directory `/blobs`. -/
def blobsStore : FileBlobStore where
  names := ["blobs".toList]
  isName := by decide
  ne_nil := by decide

/-- The replays `a/b` and `a_b` of one project have one file; the replay `..` is written next to the
folders of the projects; and the file name `../../../x` leads from the attachments of one project to
the directory of the store. -/
theorem client_ids_collide :
    saveReplayRecording blobsStore "1" "a/b" 0 [1] =
      saveReplayRecording blobsStore "1" "a_b" 0 [2] ∧
    saveReplayRecording blobsStore "1" "a/b" 0 [1] =
      .ok "/blobs/replays/1/a_b/segment-000000.rrweb".toList ∧
    saveReplayRecording blobsStore "1" ".." 0 [1] =
      .ok "/blobs/replays/segment-000000.rrweb".toList ∧
    ¬blobsStore.Under (replayPrefix "1") "/blobs/replays/segment-000000.rrweb".toList ∧
    saveAttachmentWithID blobsStore false "" "1" "e" "" "../../../x" = .ok "/blobs/x".toList ∧
    ¬blobsStore.Under (rawAttachmentPrefix "1") "/blobs/x".toList := by
  decide +kernel

end Urgentry

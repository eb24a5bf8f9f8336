import Mathlib.Data.Finset.Sort
import Mathlib.Data.Int.Basic
import Mathlib.Order.SymmDiff
import McpHeartbeat.Base.Keyed
import McpHeartbeat.Py.Str

/-!
# The source distribution, repacked

A source distribution is a compressed archive. It is rewritten with everything fixed but its contents.

* `TarInfo`, `Member`, `TarGzip`: archives, as a reader and a writer of members; `TarGzip.ReadsBack`;
* `normaliseSdist`: what is raised, and what the file is then;
* `SameContents`, `SameCodes`, `Sound`: what is kept, what is not fixed, and what a repack is to do;
* `normaliseSdist_plain`, `normaliseSdist_refused`: the two ways through;
* **`repack_canonical_exactly_when`**: a repack does that, and two archives of the same contents become
  one, exactly if no payload of a sparse member is lost and the type codes are the same.

The writer of archives and their reader are parameters. No map is written of a sparse member, so that it
is read back as empty.
-/

namespace McpHeartbeat.Tools

open Base

/-! ## Archives -/

def REGTYPE : UInt8 := 0x30

def AREGTYPE : UInt8 := 0x00

def CONTTYPE : UInt8 := 0x37

def GNUTYPE_SPARSE : UInt8 := 0x53

def DIRTYPE : UInt8 := 0x35

/-- The type codes of regular files. -/
def REGULAR_TYPES : List UInt8 := [REGTYPE, AREGTYPE, CONTTYPE, GNUTYPE_SPARSE]

/-- What is fixed of a directory and of a file. -/
def DIR_MODE : ℕ := 0o755

def FILE_MODE : ℕ := 0o644

/-- The header of a member. -/
structure TarInfo where
  name : Str
  type : UInt8
  size : ℕ
  mtime : ℤ
  mode : ℕ
  uid : ℕ
  gid : ℕ
  uname : Str
  gname : Str
deriving DecidableEq

/-- A member: its header, and the payload of a file. -/
structure Member extends TarInfo where
  payload : List UInt8
deriving DecidableEq

namespace Member

/-- `isdir`. -/
def isdir (m : Member) : Bool := m.type = DIRTYPE

/-- `isfile`. -/
def isfile (m : Member) : Bool := m.type ∈ REGULAR_TYPES

/-- The payload of a file, and `None` of a directory. -/
def contents (m : Member) : Option (List UInt8) := if m.isdir then none else some m.payload

/-- What a repack is to keep of a member, and its type code. -/
def facts (m : Member) : Str × UInt8 × Option (List UInt8) := (m.name, m.type, m.contents)

/-- What is read of a member that was written: of a sparse one no map is written. -/
def readBack (m : Member) : Str × UInt8 × Option (List UInt8) :=
  (m.name, m.type, if m.type = GNUTYPE_SPARSE then some [] else m.contents)

/-- Neither a directory nor a regular file. -/
def Odd (m : Member) : Prop := m.isdir = false ∧ m.isfile = false

end Member

/-- A writer of compressed archives, and a reader of them. -/
structure TarGzip (Bytes : Type*) where
  pack : List Member → Bytes
  getmembers : Bytes → Option (List Member)

variable {Bytes : Type*}

/-- **Members are read back as they were written**, but for the payload of a sparse one. This is asked of
directories and regular files alone, under names and type codes that were read of some archive. -/
def TarGzip.ReadsBack (T : TarGzip Bytes) : Prop :=
  ∀ out : List Member, (∀ m ∈ out, ¬ m.Odd ∧ ∃ file ms, T.getmembers file = some ms ∧
      ∃ n ∈ ms, n.name = m.name ∧ n.type = m.type) →
    ∃ ns, T.getmembers (T.pack out) = some ns ∧ ns.map Member.facts = out.map Member.readBack

/-- What a repack raises. -/
inductive SdistError
  | unreadable
  | unexpectedMember (name : Str)
  | changed (lost : List Str)
deriving DecidableEq

/-- The text of a `ValueError`. -/
def SdistError.message (quote : Str → Str) : SdistError → Option Str
  | unreadable => none
  | unexpectedMember name => some (py "unexpected member type in sdist: " ++ quote name)
  | changed lost =>
    some (py "normalising the sdist changed its contents: " ++
      if lost = [] then py "payload differs"
      else py "[" ++ (py ", ").intercalate (lost.map quote) ++ py "]")

/-! ## The repack -/

/-- What is kept of an archive. -/
abbrev Payloads := Finmap fun _ : Str => Option (List UInt8)

/-- One step of the first loop. -/
def readPayload (payloads : Payloads) (member : Member) : Except SdistError Payloads :=
  if member.isdir then .ok (payloads.insert member.name none)
  else if member.isfile then .ok (payloads.insert member.name (some member.payload))
  else .error (.unexpectedMember member.name)

/-- The first loop: what is read, or the member that is refused. -/
def payloadsOf (members : List Member) : Except SdistError Payloads := members.foldlM readPayload ∅

/-- A member as it is written. -/
def rewritten (epoch : ℤ) (payloads : Payloads) (member : Member) : Member :=
  match payloads.lookup member.name with
  | some (some payload) =>
    { name := member.name, type := member.type, mtime := epoch, uid := 0, gid := 0, uname := [],
      gname := [], mode := FILE_MODE, size := payload.length, payload }
  | _ =>
    { name := member.name, type := member.type, mtime := epoch, uid := 0, gid := 0, uname := [],
      gname := [], mode := DIR_MODE, size := 0, payload := [] }

/-- The last loop: what the new archive contains. -/
def roundtrip (members : List Member) : Payloads :=
  members.foldl (fun found member =>
    if member.isdir then found.insert member.name none
    else found.insert member.name (some member.payload)) ∅

/-- `sorted(set(payloads) ^ set(roundtrip))`. -/
def lostNames (payloads found : Payloads) : List Str :=
  (symmDiff payloads.keys found.keys).sort Str.keyLe

/-- `normalise_sdist`: what it raises, and what the file is then. -/
def normaliseSdist (T : TarGzip Bytes) (epoch : ℤ) (file : Bytes) : Except SdistError Unit × Bytes :=
  match T.getmembers file with
  | none => (.error .unreadable, file)
  | some members =>
    match payloadsOf members with
    | .error e => (.error e, file)
    | .ok payloads =>
      let out := (members.insertionSort fun m n => m.name.keyLe n.name).map (rewritten epoch payloads)
      match T.getmembers (T.pack out) with
      | none => (.error .unreadable, T.pack out)
      | some found =>
        if roundtrip found ≠ payloads then
          (.error (.changed (lostNames payloads (roundtrip found))), T.pack out)
        else (.ok (), T.pack out)

/-! ## What a repack is to do -/

/-- The file is an archive of these members, under distinct names. -/
structure TarGzip.Holds (T : TarGzip Bytes) (file : Bytes) (ms : List Member) : Prop where
  members : T.getmembers file = some ms
  distinct : (ms.map fun m => m.name).Nodup

/-- The names of the directories. -/
def dirNames (ms : List Member) : Set Str := {name | ∃ m ∈ ms, m.isdir = true ∧ m.name = name}

/-- The names of the regular files, each with its payload. -/
def filePayloads (ms : List Member) : Set (Str × List UInt8) :=
  {p | ∃ m ∈ ms, m.isfile = true ∧ (m.name, m.payload) = p}

/-- The same directories, and the same files. -/
structure SameContents (ms ns : List Member) : Prop where
  dirs : dirNames ms = dirNames ns
  files : filePayloads ms = filePayloads ns

/-- Members of one name have one type code. -/
def SameCodes (ms ns : List Member) : Prop := ∀ m ∈ ms, ∀ n ∈ ns, m.name = n.name → m.type = n.type

/-- No payload of a sparse member is lost. -/
def Lossless (ms : List Member) : Prop := ∀ m ∈ ms, m.type = GNUTYPE_SPARSE → m.payload = []

/-- **What a repack is to do** to one archive. -/
structure Sound (T : TarGzip Bytes) (epoch : ℤ) (file : Bytes) (ms : List Member) : Prop where
  preserves : ∃ ns, T.getmembers (normaliseSdist T epoch file).2 = some ns ∧ SameContents ms ns
  idempotent : normaliseSdist T epoch (normaliseSdist T epoch file).2 = normaliseSdist T epoch file
  raises_iff : (∃ e, (normaliseSdist T epoch file).1 = .error e) ↔ ∃ m ∈ ms, m.Odd
  untouched : ∀ e, (normaliseSdist T epoch file).1 = .error e →
    (normaliseSdist T epoch file).2 = file

/-! ## The loops -/

variable {T : TarGzip Bytes} {epoch : ℤ} {file : Bytes} {m : Member} {ms ns : List Member}

/-- What is kept of the members. -/
def kept (ms : List Member) : Payloads := dict (fun m : Member => m.name) Member.contents ms

theorem readPayload_eq (payloads : Payloads) (h : ¬ m.Odd) :
    readPayload payloads m = .ok (payloads.insert m.name m.contents) := by
  unfold readPayload Member.contents
  split_ifs with hdir hfile
  · rfl
  · rfl
  · exact absurd ⟨Bool.eq_false_iff.mpr hdir, Bool.eq_false_iff.mpr hfile⟩ h

theorem payloadsOf_plain (h : ∀ m ∈ ms, ¬ m.Odd) : payloadsOf ms = .ok (kept ms) := by
  have hloop : ∀ payloads : Payloads, ms.foldlM readPayload payloads =
      .ok (ms.foldl (fun d m => d.insert m.name m.contents) payloads) := by
    induction ms with
    | nil => exact fun _ => rfl
    | cons m ms ih =>
      intro payloads
      rw [List.foldlM_cons, readPayload_eq payloads (h m List.mem_cons_self)]
      exact ih (fun n hn => h n (List.mem_cons_of_mem m hn)) _
  exact hloop ∅

theorem payloadsOf_odd (h : ∃ m ∈ ms, m.Odd) : ∃ e, payloadsOf ms = .error e := by
  have hloop : ∀ payloads : Payloads, ∃ e, ms.foldlM readPayload payloads = .error e := by
    induction ms with
    | nil =>
      obtain ⟨m, hm, -⟩ := h
      cases hm
    | cons n ms ih =>
      intro payloads
      rw [List.foldlM_cons]
      by_cases hn : n.Odd
      · refine ⟨.unexpectedMember n.name, ?_⟩
        have hdir : ¬ n.isdir = true := Bool.eq_false_iff.mp hn.1
        have hfile : ¬ n.isfile = true := Bool.eq_false_iff.mp hn.2
        rw [readPayload, if_neg hdir, if_neg hfile]
        rfl
      · rw [readPayload_eq payloads hn]
        obtain ⟨m, hm, hodd⟩ := h
        rcases List.mem_cons.mp hm with rfl | hm
        · exact absurd hodd hn
        · exact ih ⟨m, hm, hodd⟩ _
  exact hloop ∅

theorem roundtrip_eq (ms : List Member) : roundtrip ms = kept ms := by
  have hstep : (fun (found : Payloads) (m : Member) =>
      if m.isdir then found.insert m.name none else found.insert m.name (some m.payload)) =
        fun found m => found.insert m.name m.contents := by
    funext found m
    unfold Member.contents
    split_ifs <;> rfl
  unfold roundtrip kept dict
  rw [hstep]

/-! ## What is written -/

/-- The member that is written of what is to be kept. -/
def fixed (epoch : ℤ) (f : Str × UInt8 × Option (List UInt8)) : Member :=
  match f.2.2 with
  | some payload =>
    { name := f.1, type := f.2.1, mtime := epoch, uid := 0, gid := 0, uname := [], gname := [],
      mode := FILE_MODE, size := payload.length, payload }
  | none =>
    { name := f.1, type := f.2.1, mtime := epoch, uid := 0, gid := 0, uname := [], gname := [],
      mode := DIR_MODE, size := 0, payload := [] }

theorem fixed_name (f : Str × UInt8 × Option (List UInt8)) : (fixed epoch f).name = f.1 := by
  unfold fixed
  split <;> rfl

theorem fixed_type (f : Str × UInt8 × Option (List UInt8)) : (fixed epoch f).type = f.2.1 := by
  unfold fixed
  split <;> rfl

/-- What is written depends on what is to be kept of the member alone. -/
theorem rewritten_eq (hms : (ms.map fun m => m.name).Nodup) (hm : m ∈ ms) :
    rewritten epoch (kept ms) m = fixed epoch m.facts := by
  have hlookup : (kept ms).lookup m.name = some m.contents := (lookup_dict hms).mpr ⟨m, hm, rfl, rfl⟩
  unfold rewritten fixed
  rw [hlookup]
  cases hcontents : m.contents with
  | none => simp only [Member.facts, hcontents]
  | some payload => simp only [Member.facts, hcontents]

theorem fixed_contents (epoch : ℤ) (m : Member) : (fixed epoch m.facts).contents = m.contents := by
  have hdir : (fixed epoch m.facts).isdir = m.isdir := by
    rw [Member.isdir, fixed_type]
    rfl
  rw [Member.contents, Member.contents, hdir]
  split_ifs with h
  · rfl
  · have hcontents : m.facts.2.2 = some m.payload := if_neg h
    rw [fixed, hcontents]

/-- What is read of it is what is read of the member. -/
theorem readBack_fixed (epoch : ℤ) (m : Member) : (fixed epoch m.facts).readBack = m.readBack := by
  rw [Member.readBack, Member.readBack, fixed_contents, fixed_type, fixed_name]
  rfl

theorem odd_fixed : (fixed epoch m.facts).Odd ↔ m.Odd := by
  rw [Member.Odd, Member.isdir, Member.isfile, fixed_type]
  rfl

/-- What is to be kept, in the order of the names. -/
def sortedFacts (ms : List Member) : List (Str × UInt8 × Option (List UInt8)) :=
  (ms.insertionSort fun m n => m.name.keyLe n.name).map Member.facts

theorem mem_sortedFacts {f : Str × UInt8 × Option (List UInt8)} :
    f ∈ sortedFacts ms ↔ f ∈ ms.map Member.facts :=
  ((List.perm_insertionSort _ ms).map Member.facts).mem_iff

/-- **Members in the order of their names**: neither their order nor anything else of them matters. -/
theorem sortedFacts_eq (hms : (ms.map fun m => m.name).Nodup) (hns : (ns.map fun m => m.name).Nodup)
    (hsame : ∀ f, f ∈ ms.map Member.facts ↔ f ∈ ns.map Member.facts) :
    sortedFacts ms = sortedFacts ns := by
  refine sorted_map_eq (r := Str.keyLe) (g := Member.facts) (k := Prod.fst) ?_ ?_ hsame
  · rwa [List.map_map]
  · rwa [List.map_map]

/-- **What is made of an archive** of directories and regular files. -/
theorem normaliseSdist_plain (hT : T.ReadsBack) (epoch : ℤ) (h : T.Holds file ms)
    (hplain : ∀ m ∈ ms, ¬ m.Odd) :
    ∃ ns, T.getmembers (T.pack ((sortedFacts ms).map (fixed epoch))) = some ns ∧
      ns.map Member.facts = (ms.insertionSort fun m n => m.name.keyLe n.name).map Member.readBack ∧
      normaliseSdist T epoch file =
        (if kept ns ≠ kept ms then .error (.changed (lostNames (kept ms) (kept ns))) else .ok (),
          T.pack ((sortedFacts ms).map (fixed epoch))) := by
  have hout : (ms.insertionSort fun m n => m.name.keyLe n.name).map (rewritten epoch (kept ms)) =
      (sortedFacts ms).map (fixed epoch) := by
    rw [sortedFacts, List.map_map]
    refine List.map_congr_left fun m hm => ?_
    exact rewritten_eq h.distinct ((List.mem_insertionSort _).mp hm)
  obtain ⟨ns, hns, hfacts⟩ := hT ((sortedFacts ms).map (fixed epoch)) (by
    intro w hw
    obtain ⟨f, hf, rfl⟩ := List.mem_map.mp hw
    obtain ⟨m, hm, rfl⟩ := List.mem_map.mp (mem_sortedFacts.mp hf)
    refine ⟨fun hodd => hplain m hm (odd_fixed.mp hodd), file, ms, h.members, m, hm, ?_, ?_⟩
    · rw [fixed_name]
      rfl
    · rw [fixed_type]
      rfl)
  refine ⟨ns, hns, ?_, ?_⟩
  · rw [hfacts, sortedFacts, List.map_map, List.map_map]
    exact List.map_congr_left fun m _ => readBack_fixed epoch m
  · unfold normaliseSdist
    rw [h.members]
    simp only [payloadsOf_plain hplain, hout, hns, roundtrip_eq]
    split_ifs <;> rfl

theorem normaliseSdist_refused (epoch : ℤ) (h : T.Holds file ms) (hodd : ∃ m ∈ ms, m.Odd) :
    ∃ e, normaliseSdist T epoch file = (.error e, file) := by
  obtain ⟨e, he⟩ := payloadsOf_odd hodd
  refine ⟨e, ?_⟩
  unfold normaliseSdist
  rw [h.members]
  simp only [he]

/-! ## What is lost -/

theorem not_isdir_of_sparse (h : m.type = GNUTYPE_SPARSE) : m.isdir = false := by
  rw [Member.isdir, h]
  rfl

theorem readBack_eq (h : m.type = GNUTYPE_SPARSE → m.payload = []) : m.readBack = m.facts := by
  rw [Member.readBack, Member.facts]
  split_ifs with hsparse
  · rw [Member.contents, not_isdir_of_sparse hsparse, h hsparse]
    rfl
  · rfl

/-- Two members of one name are one. -/
theorem eq_of_name (h : (ms.map fun m => m.name).Nodup) {n : Member} (hm : m ∈ ms) (hn : n ∈ ms)
    (hname : m.name = n.name) : m = n := List.inj_on_of_nodup_map h hm hn hname

section Found

variable {out : List Member}
  (hfacts : ns.map Member.facts = (ms.insertionSort fun m n => m.name.keyLe n.name).map Member.readBack)

include hfacts

theorem found_distinct (h : (ms.map fun m => m.name).Nodup) : (ns.map fun m => m.name).Nodup := by
  have hnames : ns.map (fun m => m.name) =
      (ms.insertionSort fun m n => m.name.keyLe n.name).map fun m => m.name := by
    have hfirst := congrArg (List.map Prod.fst) hfacts
    rwa [List.map_map, List.map_map] at hfirst
  rw [hnames]
  exact ((List.perm_insertionSort _ ms).map _).nodup_iff.mpr h

/-- What is found is what was read, if nothing is lost. -/
theorem found_facts (h : Lossless ms) : ns.map Member.facts = sortedFacts ms := by
  rw [hfacts, sortedFacts]
  refine List.map_congr_left fun m hm => readBack_eq (h m ?_)
  exact (List.mem_insertionSort _).mp hm

theorem exists_readBack {n : Member} (hn : n ∈ ns) : ∃ m ∈ ms, m.readBack = n.facts := by
  have hmem : n.facts ∈ ns.map Member.facts := List.mem_map_of_mem hn
  rw [hfacts] at hmem
  obtain ⟨m, hm, heq⟩ := List.mem_map.mp hmem
  exact ⟨m, (List.mem_insertionSort _).mp hm, heq⟩

/-- **The comparison finds what is lost.** -/
theorem kept_eq_iff (h : (ms.map fun m => m.name).Nodup) : kept ns = kept ms ↔ Lossless ms := by
  have hns := found_distinct hfacts h
  constructor
  · intro heq m hm hsparse
    have hcontents : m.contents = some m.payload := by
      rw [Member.contents, not_isdir_of_sparse hsparse]
      rfl
    have hlookup : (kept ms).lookup m.name = some m.contents :=
      (lookup_dict h).mpr ⟨m, hm, rfl, rfl⟩
    rw [← heq, hcontents] at hlookup
    obtain ⟨n, hn, hname, hpayload⟩ := (lookup_dict hns).mp hlookup
    obtain ⟨m', hm', hread⟩ := exists_readBack hfacts hn
    obtain rfl : m' = m := eq_of_name h hm' hm ((congrArg Prod.fst hread).trans hname)
    have hempty : m'.readBack.2.2 = some [] := if_pos hsparse
    rw [hread] at hempty
    exact Option.some.inj (hpayload.symm.trans hempty)
  · intro hless
    refine (dict_eq_iff hns h).mpr fun p => ?_
    have hpairs : ∀ l : List Member, l.map (fun m => (m.name, m.contents)) =
        (l.map Member.facts).map fun f => (f.1, f.2.2) := fun l => by
      rw [List.map_map]
      rfl
    rw [hpairs, hpairs, found_facts hfacts hless, List.mem_map, List.mem_map]
    simp only [mem_sortedFacts]

end Found

/-! ## Repacks -/

theorem not_isdir_of_isfile (h : m.isfile = true) : m.isdir = false := by
  have hcodes : DIRTYPE ∉ REGULAR_TYPES := by decide
  refine Bool.eq_false_iff.mpr fun hdir => ?_
  have htype : m.type = DIRTYPE := of_decide_eq_true hdir
  exact hcodes (htype ▸ of_decide_eq_true h)

theorem facts_eq {n : Member} (hname : n.name = m.name) (htype : n.type = m.type)
    (hpayload : m.isdir = false → n.payload = m.payload) : n.facts = m.facts := by
  have hdir : n.isdir = m.isdir := by rw [Member.isdir, htype, ← Member.isdir]
  rw [Member.facts, Member.facts, Member.contents, Member.contents, hdir, hname, htype]
  split_ifs with h
  · rfl
  · rw [hpayload (Bool.eq_false_iff.mpr h)]

/-- What is kept of members tells their directories and files. -/
theorem sameContents_of_facts (h : ∀ f, f ∈ ms.map Member.facts ↔ f ∈ ns.map Member.facts) :
    SameContents ms ns := by
  have hone : ∀ {ms ns : List Member},
      (∀ f, f ∈ ms.map Member.facts → f ∈ ns.map Member.facts) → ∀ m ∈ ms,
        ∃ n ∈ ns, n.name = m.name ∧ n.type = m.type ∧ n.contents = m.contents := by
    intro ms ns hsub m hm
    obtain ⟨n, hn, heq⟩ := List.mem_map.mp (hsub _ (List.mem_map_of_mem hm))
    obtain ⟨hname, hrest⟩ := Prod.mk.inj heq
    obtain ⟨htype, hcontents⟩ := Prod.mk.inj hrest
    exact ⟨n, hn, hname, htype, hcontents⟩
  have hdirs : ∀ {ms ns : List Member},
      (∀ f, f ∈ ms.map Member.facts → f ∈ ns.map Member.facts) → dirNames ms ⊆ dirNames ns := by
    rintro ms ns hsub name ⟨m, hm, hdir, rfl⟩
    obtain ⟨n, hn, hname, htype, -⟩ := hone hsub m hm
    refine ⟨n, hn, ?_, hname⟩
    rwa [Member.isdir, htype]
  have hfiles : ∀ {ms ns : List Member},
      (∀ f, f ∈ ms.map Member.facts → f ∈ ns.map Member.facts) →
        filePayloads ms ⊆ filePayloads ns := by
    rintro ms ns hsub p ⟨m, hm, hfile, rfl⟩
    obtain ⟨n, hn, hname, htype, hcontents⟩ := hone hsub m hm
    have hfile' : n.isfile = true := by rwa [Member.isfile, htype]
    rw [Member.contents, Member.contents, not_isdir_of_isfile hfile, not_isdir_of_isfile hfile']
      at hcontents
    exact ⟨n, hn, hfile', Prod.ext hname (Option.some.inj hcontents)⟩
  exact ⟨(hdirs fun f => (h f).mp).antisymm (hdirs fun f => (h f).mpr),
    (hfiles fun f => (h f).mp).antisymm (hfiles fun f => (h f).mpr)⟩

/-- The same directories and files, under the same type codes, are to be kept alike. -/
theorem facts_of_sameContents (hms : ∀ m ∈ ms, ¬ m.Odd) (hcontents : SameContents ms ns)
    (hcodes : SameCodes ms ns) (hm : m ∈ ms) : m.facts ∈ ns.map Member.facts := by
  by_cases hdir : m.isdir = true
  · have hname : m.name ∈ dirNames ns := hcontents.dirs ▸ ⟨m, hm, hdir, rfl⟩
    obtain ⟨n, hn, hdir', hname⟩ := hname
    refine List.mem_map.mpr ⟨n, hn, facts_eq hname (hcodes m hm n hn hname.symm).symm ?_⟩
    intro hno
    rw [hdir] at hno
    cases hno
  · have hfile : m.isfile = true := by
      by_contra hno
      exact hms m hm ⟨Bool.eq_false_iff.mpr hdir, Bool.eq_false_iff.mpr hno⟩
    have hpair : (m.name, m.payload) ∈ filePayloads ns := hcontents.files ▸ ⟨m, hm, hfile, rfl⟩
    obtain ⟨n, hn, -, heq⟩ := hpair
    obtain ⟨hname, hpayload⟩ := Prod.mk.inj heq
    exact List.mem_map.mpr
      ⟨n, hn, facts_eq hname (hcodes m hm n hn hname.symm).symm fun _ => hpayload⟩

/-- What is found in a repack of an archive from which nothing is lost. -/
theorem normaliseSdist_lossless (hT : T.ReadsBack) (epoch : ℤ) (h : T.Holds file ms)
    (hplain : ∀ m ∈ ms, ¬ m.Odd) (hless : Lossless ms) :
    normaliseSdist T epoch file = (.ok (), T.pack ((sortedFacts ms).map (fixed epoch))) ∧
      ∃ ns, T.Holds (T.pack ((sortedFacts ms).map (fixed epoch))) ns ∧
        ∀ f, f ∈ ns.map Member.facts ↔ f ∈ ms.map Member.facts := by
  obtain ⟨ns, hns, hfacts, hresult⟩ := normaliseSdist_plain hT epoch h hplain
  have hkept : kept ns = kept ms := (kept_eq_iff hfacts h.distinct).mpr hless
  rw [if_neg (not_not.mpr hkept)] at hresult
  refine ⟨hresult, ns, ⟨hns, found_distinct hfacts h.distinct⟩, fun f => ?_⟩
  rw [found_facts hfacts hless]
  exact mem_sortedFacts

theorem plain_of_facts (h : ∀ f, f ∈ ns.map Member.facts ↔ f ∈ ms.map Member.facts)
    (hplain : ∀ m ∈ ms, ¬ m.Odd) : ∀ n ∈ ns, ¬ n.Odd := by
  intro n hn hodd
  obtain ⟨m, hm, heq⟩ := List.mem_map.mp ((h _).mp (List.mem_map_of_mem hn))
  have htype : m.type = n.type := congrArg (fun f => f.2.1) heq
  refine hplain m hm ?_
  rwa [Member.Odd, Member.isdir, Member.isfile, htype]

theorem lossless_of_facts (h : ∀ f, f ∈ ns.map Member.facts ↔ f ∈ ms.map Member.facts)
    (hless : Lossless ms) : Lossless ns := by
  intro n hn hsparse
  obtain ⟨m, hm, heq⟩ := List.mem_map.mp ((h _).mp (List.mem_map_of_mem hn))
  have htype : m.type = n.type := congrArg (fun f => f.2.1) heq
  have hcontents : m.contents = n.contents := congrArg (fun f => f.2.2) heq
  have hsparse' : m.type = GNUTYPE_SPARSE := htype.trans hsparse
  rw [Member.contents, Member.contents, not_isdir_of_sparse hsparse, not_isdir_of_sparse hsparse']
    at hcontents
  rw [← Option.some.inj hcontents]
  exact hless m hm hsparse'

theorem Sound.refused (epoch : ℤ) (h : T.Holds file ms) (hodd : ∃ m ∈ ms, m.Odd) :
    Sound T epoch file ms := by
  obtain ⟨e, he⟩ := normaliseSdist_refused epoch h hodd
  constructor
  · rw [he]
    exact ⟨ms, h.members, rfl, rfl⟩
  · rw [he, he]
  · rw [he]
    exact iff_of_true ⟨e, rfl⟩ hodd
  · intro _ _
    rw [he]

theorem Sound.lossless (hT : T.ReadsBack) (epoch : ℤ) (h : T.Holds file ms)
    (hplain : ∀ m ∈ ms, ¬ m.Odd) (hless : Lossless ms) : Sound T epoch file ms := by
  obtain ⟨hresult, ns, hns, hfacts⟩ := normaliseSdist_lossless hT epoch h hplain hless
  -- what is found in the repack is repacked into the same
  obtain ⟨hagain, -⟩ := normaliseSdist_lossless hT epoch hns (plain_of_facts hfacts hplain)
    (lossless_of_facts hfacts hless)
  have hsorted : sortedFacts ns = sortedFacts ms := sortedFacts_eq hns.distinct h.distinct hfacts
  constructor
  · rw [hresult]
    exact ⟨ns, hns.members, sameContents_of_facts fun f => (hfacts f).symm⟩
  · rw [hresult, hagain, hsorted]
  · rw [hresult]
    refine iff_of_false ?_ ?_
    · rintro ⟨e, he⟩
      cases he
    · rintro ⟨m, hm, hodd⟩
      exact hplain m hm hodd
  · intro e he
    rw [hresult] at he
    cases he

/-- **One archive** is repacked as it is to be, exactly if it is refused or nothing of it is lost. -/
theorem sound_iff (hT : T.ReadsBack) (epoch : ℤ) (h : T.Holds file ms) :
    Sound T epoch file ms ↔ (∃ m ∈ ms, m.Odd) ∨ Lossless ms := by
  by_cases hodd : ∃ m ∈ ms, m.Odd
  · exact iff_of_true (.refused epoch h hodd) (Or.inl hodd)
  · have hplain : ∀ m ∈ ms, ¬ m.Odd := fun m hm hm' => hodd ⟨m, hm, hm'⟩
    rw [or_iff_right hodd]
    constructor
    · intro hsound
      obtain ⟨ns, -, hfacts, hresult⟩ := normaliseSdist_plain hT epoch h hplain
      refine (kept_eq_iff hfacts h.distinct).mp ?_
      by_contra hlost
      rw [if_pos hlost] at hresult
      exact hodd (hsound.raises_iff.mp ⟨_, congrArg Prod.fst hresult⟩)
    · exact .lossless hT epoch h hplain

/-- **Two archives** of the same directories and files become one exactly if their type codes agree. -/
theorem repack_eq_iff (hT : T.ReadsBack) (epoch : ℤ) {file' : Bytes} (h : T.Holds file ms)
    (h' : T.Holds file' ns) (hms : ∀ m ∈ ms, ¬ m.Odd) (hns : ∀ n ∈ ns, ¬ n.Odd)
    (hcontents : SameContents ms ns) :
    (normaliseSdist T epoch file).2 = (normaliseSdist T epoch file').2 ↔ SameCodes ms ns := by
  obtain ⟨found, hfound, hfacts, hresult⟩ := normaliseSdist_plain hT epoch h hms
  obtain ⟨found', hfound', hfacts', hresult'⟩ := normaliseSdist_plain hT epoch h' hns
  rw [hresult, hresult']
  constructor
  · intro heq m hm n hn hname
    have hpack : T.pack ((sortedFacts ms).map (fixed epoch)) =
        T.pack ((sortedFacts ns).map (fixed epoch)) := heq
    rw [hpack] at hfound
    obtain rfl : found = found' := Option.some.inj (hfound.symm.trans hfound')
    have hread : m.readBack ∈ found.map Member.facts := by
      rw [hfacts]
      exact List.mem_map_of_mem ((List.mem_insertionSort _).mpr hm)
    rw [hfacts'] at hread
    obtain ⟨n', hn', hsame⟩ := List.mem_map.mp hread
    obtain rfl : n' = n := eq_of_name h'.distinct ((List.mem_insertionSort _).mp hn') hn
      ((congrArg Prod.fst hsame).trans hname)
    exact (congrArg (fun f => f.2.1) hsame).symm
  · intro hcodes
    have hcodes' : SameCodes ns ms := fun n hn m hm hname => (hcodes m hm n hn hname.symm).symm
    have hsorted : sortedFacts ms = sortedFacts ns := by
      refine sortedFacts_eq h.distinct h'.distinct fun f => ⟨fun hf => ?_, fun hf => ?_⟩
      · obtain ⟨m, hm, rfl⟩ := List.mem_map.mp hf
        exact facts_of_sameContents hms hcontents hcodes hm
      · obtain ⟨n, hn, rfl⟩ := List.mem_map.mp hf
        exact facts_of_sameContents hns ⟨hcontents.dirs.symm, hcontents.files.symm⟩ hcodes' hn
    rw [hsorted]

/-- **Repacks are canonical exactly so far.** One archive is repacked as it is to be exactly if it
contains a member that is refused, or no sparse one with a payload. Two archives of the same directories
and files become one exactly if the type codes of their files are the same. -/
theorem repack_canonical_exactly_when (hT : T.ReadsBack) (epoch : ℤ) :
    (∀ file ms, T.Holds file ms →
      (Sound T epoch file ms ↔ (∃ m ∈ ms, m.Odd) ∨ Lossless ms)) ∧
    ∀ file ms file' ns, T.Holds file ms → T.Holds file' ns → (∀ m ∈ ms, ¬ m.Odd) →
      (∀ n ∈ ns, ¬ n.Odd) → SameContents ms ns →
      ((normaliseSdist T epoch file).2 = (normaliseSdist T epoch file').2 ↔ SameCodes ms ns) :=
  ⟨fun _ _ => sound_iff hT epoch, fun _ _ _ _ => repack_eq_iff hT epoch⟩

/-! ## A container -/

/-- What is left of a member that is written. -/
def written (m : Member) : Member := if m.type = GNUTYPE_SPARSE then { m with payload := [] } else m

/-- Archives as the members that are read of them. -/
def listed : TarGzip (List Member) := { pack := fun out => out.map written, getmembers := some }

theorem listed_readsBack : listed.ReadsBack := by
  intro out _
  refine ⟨out.map written, rfl, ?_⟩
  rw [List.map_map]
  refine List.map_congr_left fun m _ => ?_
  rw [Function.comp_apply, written, Member.readBack]
  split_ifs with hsparse
  · have hdir : Member.isdir { m with payload := [] } = false := not_isdir_of_sparse hsparse
    rw [Member.facts, Member.contents, hdir]
    rfl
  · rfl

/-- A file of one octet, under a type code. -/
def oneOctet (type : UInt8) : Member :=
  { name := py "pkg/a.py", type, size := 1, mtime := 7, mode := 0o600, uid := 1000, gid := 1000,
    uname := py "build", gname := py "build", payload := [0x0A] }

/-- A directory. -/
def packageDir : Member :=
  { name := py "pkg", type := DIRTYPE, size := 0, mtime := 7, mode := 0o700, uid := 1000, gid := 1000,
    uname := py "build", gname := py "build", payload := [] }

/-- A directory and a regular file. -/
def regularSdist : List Member := [packageDir, oneOctet REGTYPE]

/-- The same, in another order and under another type code. -/
def contiguousSdist : List Member := [oneOctet CONTTYPE, packageDir]

theorem holds_regularSdist : listed.Holds regularSdist regularSdist := ⟨rfl, by decide⟩

theorem holds_contiguousSdist : listed.Holds contiguousSdist contiguousSdist := ⟨rfl, by decide⟩

theorem sameContents_sdists : SameContents regularSdist contiguousSdist := by
  have hdir : packageDir.isdir = true ∧ packageDir.isfile = false := by decide
  have hreg : (oneOctet REGTYPE).isdir = false ∧ (oneOctet REGTYPE).isfile = true := by decide
  have hcont : (oneOctet CONTTYPE).isdir = false ∧ (oneOctet CONTTYPE).isfile = true := by decide
  constructor
  · ext name
    simp only [dirNames, regularSdist, contiguousSdist, Set.mem_ofPred_eq, List.mem_cons,
      List.not_mem_nil, or_false, exists_eq_or_imp, exists_eq_left, hdir.1, hreg.1, hcont.1,
      Bool.false_eq_true, false_and, or_false, false_or]
  · ext p
    simp only [filePayloads, regularSdist, contiguousSdist, Set.mem_ofPred_eq, List.mem_cons,
      List.not_mem_nil, or_false, exists_eq_or_imp, exists_eq_left, hdir.2, hreg.2, hcont.2,
      Bool.false_eq_true, false_and, or_false, false_or]
    rfl

theorem plain_regularSdist : ∀ m ∈ regularSdist, ¬ m.Odd := by
  unfold Member.Odd
  decide

theorem plain_contiguousSdist : ∀ m ∈ contiguousSdist, ¬ m.Odd := by
  unfold Member.Odd
  decide

theorem repack_canonical_exactly_when_pair :
    (Sound listed 0 regularSdist regularSdist ↔
      (∃ m ∈ regularSdist, m.Odd) ∨ Lossless regularSdist) ∧
    ((normaliseSdist listed 0 regularSdist).2 = (normaliseSdist listed 0 contiguousSdist).2 ↔
      SameCodes regularSdist contiguousSdist) :=
  have h := repack_canonical_exactly_when listed_readsBack 0
  ⟨h.1 _ _ holds_regularSdist, h.2 _ _ _ _ holds_regularSdist holds_contiguousSdist
    plain_regularSdist plain_contiguousSdist sameContents_sdists⟩

/-- **The type code survives the repack**: two archives of the same contents are repacked apart. -/
theorem type_code_survives : listed.Holds regularSdist regularSdist ∧
    listed.Holds contiguousSdist contiguousSdist ∧ SameContents regularSdist contiguousSdist ∧
    (normaliseSdist listed 0 regularSdist).2 ≠ (normaliseSdist listed 0 contiguousSdist).2 := by
  refine ⟨holds_regularSdist, holds_contiguousSdist, sameContents_sdists, ?_⟩
  intro heq
  have hcodes : SameCodes regularSdist contiguousSdist :=
    (repack_eq_iff listed_readsBack 0 holds_regularSdist holds_contiguousSdist plain_regularSdist
      plain_contiguousSdist sameContents_sdists).mp heq
  have hsame := hcodes (oneOctet REGTYPE) (by simp [regularSdist]) (oneOctet CONTTYPE)
    List.mem_cons_self rfl
  revert hsame
  decide

end McpHeartbeat.Tools

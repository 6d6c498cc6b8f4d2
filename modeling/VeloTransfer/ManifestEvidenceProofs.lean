import Mathlib
import VeloTransfer.JournalRecoveryProofs
import VeloTransfer.ManifestProofs

/-! # Manifests as evidence — what the evidence store takes

    The store counts nodes, the admission of a manifest does not.  A manifest that
    was admitted is written as evidence and read back exactly when it has at most
    10,000 nodes (`manifest_persisted`). -/

namespace Manifest

open EffectPrograms Program FaultScript FileNodes CanonicalJson JsonLine BoundedJson JsonDict
open JsonLimits Sha256 GuestTerminal HostJournal ExceptRules

def MAX_SPEC_BYTES : Nat := 1048576

/-- `HostJournal.__init__`: the limits that it takes from the budget of the request. -/
def hostJournal (b : Budget) (device maxDuration digits : Nat) (transferId : Text) (binding : Json) :
    Journal :=
  { device := device, transferId := transferId, binding := binding
    limit := b.maxMetadataBytes + 2 * MAX_SPEC_BYTES, evidenceLimit := b.maxMetadataBytes
    maxEvidenceFiles := min (b.maxFiles + 32) b.maxMetadataBytes
    maxDuration := maxDuration, maxDigits := digits }

/-- Without outside failures and with room in the directory, a value is written under
    a name, and read back as the same dictionary. -/
def Persists (j : Journal) (name : Text) (v : Json) : Prop :=
  ∀ (m : Machine Failure Disk) (raw : Bytes), m.script = [] → m.disk.memory.isSome = true →
    m.disk.task = true → dumps v = some raw → Room j name raw m.disk →
    ∃ ref m', writeEvidence j name v m = (.done ref, m') ∧ (readEvidence j ref m').1 = .done v.sortKeys

section Evidence

variable {j : Journal} {name : Text} {v : Json} {raw : Bytes}

theorem evidenceBytes_ok (hraw : dumps v = some raw) (hlength : raw.length ≤ j.evidenceLimit) :
    j.evidenceBytes v = .ok raw ↔ validateJson (j.limits j.evidenceLimit) v = none := by
  unfold Journal.evidenceBytes
  cases hvalid : validateJson (j.limits j.evidenceLimit) v with
  | some code => exact ⟨nofun, nofun⟩
  | none =>
      rw [hraw]
      dsimp only
      rw [if_neg (Nat.not_lt.mpr hlength)]
      exact ⟨fun _ => rfl, fun _ => rfl⟩

/-- What was written is read back. -/
theorem completes_readEvidence {deadline room : Nat} {d : Disk} {f : FileNode} (hv : Value v)
    (hvalid : validateJson (j.limits j.evidenceLimit) v = none) (hraw : dumps v = some raw)
    (hlength : raw.length ≤ j.evidenceLimit) (hname : isName name = true) (hserved : Served d)
    (hf : d.evidence.lookup name = some f) (hbytes : f.bytes = raw) :
    Completes id deadline room (fun d' => d' = d) (readEvidence j (j.evidenceRef name raw f))
      (fun w _ => w = v.sortKeys) := by
  obtain rfl := hbytes
  refine completes_writer ?_ (completes_getDisk (fun d' hd' => ?_))
  · rintro d' rfl
    exact ⟨hserved.lock, fun _ => hserved.task⟩
  obtain rfl : d' = d := hd'
  refine completes_check (by rw [hserved.directory]; exact nofun) (completes_check ?_ (completes_check ?_ ?_))
  · rw [show (j.evidenceRef name f.bytes f).name = name from rfl, hname]
    exact nofun
  · rintro (h | h)
    · exact absurd h (Nat.not_lt.mpr hlength)
    · exact absurd ((isHex_hexdigest f.bytes).symm.trans h) nofun
  rw [show d'.evidence.lookup (j.evidenceRef name f.bytes f).name = some f from hf]
  refine completes_bind (completes_readFile hlength) (fun r => completes_pull (fun hr => ?_))
  obtain rfl := hr
  refine completes_check (fun h => h rfl) ?_
  rw [decode_dumps hv hvalid hraw hlength]
  exact completes_pure (fun _ _ => rfl)

/-- **A value within the limits of the store** is written and read back. -/
theorem persists_of_valid (hname : isName name = true) (hv : Value v)
    (hvalid : validateJson (j.limits j.evidenceLimit) v = none) (hraw : dumps v = some raw)
    (hlength : raw.length ≤ j.evidenceLimit) : Persists j name v := by
  intro m raw' hscript hlock htask hraw' hroom
  obtain rfl := Option.some.inj (hraw'.symm.trans hraw)
  have hbytes := (evidenceBytes_ok hraw hlength).mpr hvalid
  obtain ⟨ref, m', hrun, hcalm, -, hserved⟩ := completes_writeEvidence hname hbytes hlock htask hroom m
    (calm_of_nil hscript) (Nat.zero_le _) rfl
  have hshelf := writeEvidence_shelf (j := j) name v m rfl
  rw [hrun] at hshelf
  obtain ⟨raw'', hraw'', -, f, hf, hfbytes, rfl, -⟩ := hshelf
  obtain rfl := Except.ok.inj (hbytes.symm.trans hraw'')
  refine ⟨_, m', hrun, ?_⟩
  obtain ⟨w, s, hread, -, -, rfl⟩ := completes_readEvidence hv hvalid hraw hlength hname hserved hf
    hfbytes m' hcalm (Nat.zero_le _) rfl
  rw [hread]

/-- A value beyond the limits is never written. -/
theorem not_written (hvalid : validateJson (j.limits j.evidenceLimit) v ≠ none)
    (m : Machine Failure Disk) (ref : EvidenceRef) : (writeEvidence j name v m).1 ≠ .done ref := by
  intro h
  have hshelf := writeEvidence_shelf (j := j) name v m rfl
  rw [h] at hshelf
  obtain ⟨raw, hraw, -⟩ := hshelf
  unfold Journal.evidenceBytes at hraw
  split at hraw
  · exact absurd hraw nofun
  next hnone => exact hvalid hnone

/-- A process that has just created the journal. -/
def emptyTask : Machine Failure Disk :=
  { disk := { Disk.empty with task := true, memory := some ⟨false, true, none⟩ }
    clock := 0, free := 0, script := [] }

/-- **The evidence store takes a value that was encoded** exactly within its limits. -/
theorem persists_iff (hname : isName name = true) (hp : v.Plain) (hd : fewDigits j.maxDigits v = true)
    (hraw : dumps v = some raw) (hlength : raw.length ≤ j.evidenceLimit)
    (hfiles : 0 < j.maxEvidenceFiles) :
    Persists j name v ↔ height v ≤ 32 ∧ nodes v ≤ 10000 := by
  have hvalid : validateJson (j.limits j.evidenceLimit) v = none ↔ _ ∧ _ ∧ _ :=
    validateJson_encoded hp hd hraw
  constructor
  · intro h
    have hnone : validateJson (j.limits j.evidenceLimit) v = none := by
      by_contra hne
      obtain ⟨ref, m', hrun, -⟩ := h emptyTask raw rfl rfl rfl hraw (Or.inr ⟨rfl, hfiles⟩)
      exact not_written hne emptyTask ref (congrArg Prod.fst hrun)
    obtain ⟨h1, h2, -⟩ := hvalid.mp hnone
    exact ⟨h1, h2⟩
  · rintro ⟨h1, h2⟩
    exact persists_of_valid hname (sound_of_dumps hp hd hraw).1 (hvalid.mpr ⟨h1, h2, hlength⟩) hraw hlength

end Evidence

/-- A value of several nodes takes some room. -/
theorem cost_pos {v : Json} (h : 1 < nodes v) : 0 < cost v := by
  cases v with
  | arr items => exact Nat.lt_of_lt_of_le Nat.zero_lt_two (Nat.le_trans (Nat.le_add_right _ _) (Nat.le_add_right _ _))
  | obj fields => exact Nat.lt_of_lt_of_le Nat.zero_lt_two (Nat.le_trans (Nat.le_add_right _ _) (Nat.le_add_right _ _))
  | _ => exact absurd h (Nat.lt_irrefl 1)

/-- **A manifest within the budget is kept** as evidence exactly when it has at most
    10,000 nodes. -/
theorem manifest_persisted {u : Unicode} {b : Budget} {device maxDuration digits : Nat}
    {transferId : Text} {binding : Json} :
    (∀ files sources refs m, scan u b digits files sources refs = .ok m →
      (Persists (hostJournal b device maxDuration digits transferId binding) (ascii "manifest") m.toJson ↔
        m.nodes ≤ 10000)) ∧
    (∀ raw v m, validatedManifest u b digits raw = .ok (v, m) →
      (Persists (hostJournal b device maxDuration digits transferId binding) (ascii "manifest") v ↔
        m.nodes ≤ 10000)) := by
  have hkept : ∀ {v m raw}, Admitted b digits v m raw →
      (Persists (hostJournal b device maxDuration digits transferId binding) (ascii "manifest") v ↔
        m.nodes ≤ 10000) := by
    intro v m raw h
    have hfiles : 0 < (hostJournal b device maxDuration digits transferId binding).maxEvidenceFiles := by
      have hpositive : 0 < raw.length := by
        obtain ⟨-, -, hcost⟩ := sound_of_dumps h.lists.plain h.digits h.encoded
        rw [hcost]
        exact cost_pos (h.lists.nodes.trans_gt (by unfold Document.nodes; omega))
      exact Nat.lt_min.mpr ⟨Nat.lt_add_left _ (by decide), Nat.lt_of_lt_of_le hpositive h.length⟩
    rw [persists_iff (by decide) h.lists.plain h.digits h.encoded h.length hfiles, h.lists.nodes]
    exact ⟨fun h => h.2, fun hn => ⟨Nat.le_trans h.lists.height (by decide), hn⟩⟩
  constructor
  · intro files sources refs m h
    obtain ⟨raw, hraw⟩ := admitted_scan h
    exact hkept hraw
  · intro raw v m h
    exact hkept (admitted_validated h)

/-! ## A source of many directories

    A source of 1250 empty directories, named by numbers, is well within a budget of
    2000 entries and a million bytes, and takes 10,005 nodes. -/

section Many

/-- Python's tables, on texts of digits. -/
def plainUnicode : Unicode := { nfc := id, casefold := id, lower := id }

def manyBudget : Budget := { maxFiles := 2000, maxMetadataBytes := 1000000, maxLogicalBytes := 0 }

def nthSource (k : Nat) : Source := { absolutePath := 47 :: 115 :: 47 :: decimal k, relativePath := decimal k }

def nthEntry (k : Nat) : Entry :=
  { path := decimal k, kind := .directory (some { device := 1, inode := k, size := 0, mtimeNs := 0 }) }

/-- Every path is an empty directory, whose inode is its number. -/
def manyFiles (path : Text) : Except String Node :=
  .ok (.directory { device := 1, inode := ofDigits 0 (path.drop 3), size := 0, mtimeNs := 0 } [])

theorem digit_bounds {c k : Nat} (h : c ∈ decimal k) : 48 ≤ c ∧ c ≤ 57 := by
  have hdigit := decimal_digits k c h
  simp only [CanonicalJson.isDigit, Bool.and_eq_true, decide_eq_true_eq] at hdigit
  exact hdigit

/-- A text of digits is one part of a path. -/
theorem splitSlash_digits {s : Text} (h : ∀ c ∈ s, 48 ≤ c ∧ c ≤ 57) : splitSlash s = [s] := by
  induction s with
  | nil => rfl
  | cons c cs ih =>
      obtain ⟨hc, hcs⟩ := List.forall_mem_cons.mp h
      unfold splitSlash
      rw [if_neg (by omega), ih hcs]

theorem isReserved_digits {c : Nat} {cs : Text} (hc : 48 ≤ c ∧ c ≤ 57) :
    isReserved plainUnicode (c :: cs) = false := by
  have hletters : ∀ name ∈ reservedNames, name.head?.any (57 < ·) = true := by decide
  unfold isReserved
  rw [List.any_eq_false]
  intro name hname
  rw [Bool.and_eq_true, not_and]
  intro heq
  have hhead := hletters name hname
  cases name with
  | nil => exact absurd hhead nofun
  | cons d ds =>
      have hd : 57 < d := of_decide_eq_true hhead
      have heq' : c :: (cs.take ds.length).map id = d :: ds := beq_iff_eq.mp heq
      have := (List.cons.inj heq').1
      omega

theorem isShortAlias_digits {s : Text} (h : ∀ c ∈ s, 48 ≤ c ∧ c ≤ 57) : isShortAlias s = false := by
  unfold isShortAlias
  rw [List.any_eq_false]
  intro k _
  rw [Bool.and_eq_true, not_and]
  intro _
  split
  next d rest heq =>
    have := h 126 (List.mem_of_mem_drop (heq ▸ List.mem_cons_self))
    omega
  · exact nofun

theorem checkRelative_digits {s : Text} (hne : s ≠ []) (h : ∀ c ∈ s, 48 ≤ c ∧ c ≤ 57) :
    checkRelative plainUnicode s = none := by
  have hno : ∀ c, ¬ (48 ≤ c ∧ c ≤ 57) → s.contains c = false := by
    intro c hc
    rw [List.contains_eq_mem, decide_eq_false_iff_not]
    exact fun hmem => hc (h c hmem)
  have hlast : ∀ c, ¬ (48 ≤ c ∧ c ≤ 57) → (s.getLast? == some c) = false := by
    intro c hc
    rw [beq_eq_false_iff_ne]
    exact fun hl => hc (h c (List.mem_of_getLast? hl))
  obtain ⟨d, ds, rfl⟩ := List.exists_cons_of_ne_nil hne
  have hd := h d List.mem_cons_self
  unfold checkRelative
  rw [failsWith_none.mpr, failsWith_none.mpr, failsWith_none.mpr]
  · rfl
  · have hdot : ∀ e es, (d :: ds == e :: es) = true → e = d :=
      fun e es heq => (List.cons.inj (beq_iff_eq.mp heq)).1.symm
    have hplain : (d :: ds).any (fun c => (ascii "<>\"|?*").contains c || c < 32) = false := by
      rw [List.any_eq_false]
      intro c hc
      have hforbidden : ∀ c, 48 ≤ c → c ≤ 57 → (ascii "<>\"|?*").contains c = false := by
        intro c h1 h2
        interval_cases c <;> decide
      obtain ⟨h1, h2⟩ := h c hc
      rw [hforbidden c h1 h2, Bool.false_or, decide_eq_true_eq]
      omega
    rw [splitSlash_digits h, List.any_cons, List.any_nil, Bool.or_false]
    unfold isBadPart
    rw [hno 58 (by omega), hlast 32 (by omega), hlast 46 (by omega), isReserved_digits hd,
      isShortAlias_digits h, hplain]
    simp only [Bool.or_false, Bool.or_eq_true, not_or]
    refine ⟨⟨⟨nofun, fun heq => ?_⟩, fun heq => ?_⟩, fun hne => ?_⟩
    · have := hdot 46 [] heq
      omega
    · have := hdot 46 [46] heq
      omega
    · exact absurd (bne_self_eq_false (d :: ds)) (by rw [show (d :: ds != d :: ds) = true from hne]; exact nofun)
  · rintro (hhead | hdrive)
    · obtain rfl := Option.some.inj hhead
      omega
    · cases ds with
      | nil => exact absurd hdrive nofun
      | cons e es =>
          rw [show hasDrive (d :: e :: es) = (isLetter d && e == 58) from rfl, Bool.and_eq_true,
            beq_iff_eq] at hdrive
          have := h e (List.mem_cons_of_mem _ List.mem_cons_self)
          omega
  · rintro (hnil | hzero | hback)
    · exact absurd hnil nofun
    · rw [hno 0 (by omega)] at hzero
      exact nomatch hzero
    · rw [hno 92 (by omega)] at hback
      exact nomatch hback

theorem checkRelative_nth (k : Nat) : checkRelative plainUnicode (decimal k) = none := by
  refine checkRelative_digits ?_ (fun c hc => digit_bounds hc)
  obtain ⟨c, cs, hcons, -⟩ := decimal_cons k
  rw [hcons]
  exact List.cons_ne_nil _ _

theorem canonicalJson_of {digits : Nat} {v : Json} {raw : Bytes} (hs : Storable digits v)
    (hraw : dumps v = some raw) : canonicalJson digits v = .ok raw := by
  unfold canonicalJson
  rw [fewDigits_of_storable v hs, hraw, if_neg nofun]

/-- A number of at most four digits. -/
theorem text_digits {k : Nat} (h : k < 10000) :
    PyText (decimal k) ∧ SoundText (decimal k) ∧ textSize (decimal k) ≤ 4 := by
  have hplain : ∀ c ∈ decimal k, 47 < c ∧ c < 127 ∧ c ≠ 92 := by
    intro c hc
    have := digit_bounds hc
    omega
  refine ⟨fun c hc => (scalar_of_lt (hplain c hc).2.1).1,
    fun c hc => (scalar_of_lt (hplain c hc).2.1).2, ?_⟩
  rw [textSize_plain hplain]
  exact decimal_length (k := 4) (by decide) h

/-- The entry of a number is written in at most 200 bytes. -/
theorem fits_nthEntry {k : Nat} (h : k < 10000) :
    Value (nthEntry k).toJson ∧ Storable 4300 (nthEntry k).toJson ∧ cost (nthEntry k).toJson ≤ 200 := by
  obtain ⟨hpy, hsound, hsize⟩ := text_digits h
  have hword : ∀ {s : Text}, isPlainText s = true → PyText s ∧ SoundText s :=
    fun hs => ⟨pyText_plain hs, soundText_ascii hs⟩
  have hdigits : (decimal k).length ≤ 4 := decimal_length (k := 4) (by decide) h
  have hrender : (renderInt k).length ≤ 4 := hdigits
  refine ⟨⟨rfl, ⟨(hword rfl).1, hpy⟩, ⟨(hword rfl).1, (hword rfl).1⟩, ⟨(hword rfl).1, rfl,
      ⟨(hword rfl).1, trivial⟩, ⟨(hword rfl).1, trivial⟩, ⟨(hword rfl).1, trivial⟩,
      ⟨(hword rfl).1, trivial⟩, trivial⟩, trivial⟩,
    ⟨⟨(hword rfl).2, hsound⟩, ⟨(hword rfl).2, (hword rfl).2⟩, ⟨(hword rfl).2,
      ⟨(hword rfl).2, ?_⟩, ⟨(hword rfl).2, Nat.le_trans hdigits (by decide)⟩, ⟨(hword rfl).2, ?_⟩,
      ⟨(hword rfl).2, ?_⟩, trivial⟩, trivial⟩, ?_⟩
  · exact (by decide : (decimal 1).length ≤ 4300)
  · exact (by decide : (decimal 0).length ≤ 4300)
  · exact (by decide : (decimal 0).length ≤ 4300)
  · have hpath : textSize (ascii "path") = 4 := by decide
    have htype : textSize (ascii "type") = 4 := by decide
    have hdirectory : textSize (ascii "directory") = 9 := by decide
    have hidentity : textSize (ascii "identity") = 8 := by decide
    have hdevice : textSize (ascii "device") = 6 := by decide
    have hinode : textSize (ascii "inode") = 5 := by decide
    have hlength : textSize (ascii "size") = 4 := by decide
    have hmtime : textSize (ascii "mtime_ns") = 8 := by decide
    have hone : (renderInt (1 : Nat)).length = 1 := by decide
    have hzero : (renderInt (0 : Nat)).length = 1 := by decide
    have hzero' : (renderInt 0).length = 1 := by decide
    simp only [nthEntry, Entry.toJson, FileIdentity.toJson, cost, costFields, List.length_cons,
      List.length_nil, hpath, htype, hdirectory, hidentity, hdevice, hinode, hlength, hmtime, hone, hzero,
      hzero']
    omega

theorem encoded_nthEntry {k : Nat} (h : k < 10000) :
    ∃ raw path, canonicalJson 4300 (nthEntry k).toJson = .ok raw ∧
      encodedLength (decimal k) = .ok path ∧ raw.length + 128 + path ≤ 400 := by
  obtain ⟨hv, hs, hcost⟩ := fits_nthEntry h
  obtain ⟨raw, hraw, hlength⟩ := dumps_of_storable hv hs
  have hlt : ∀ c ∈ decimal k, c < 127 := by
    intro c hc
    have := digit_bounds hc
    omega
  have hdigits : (decimal k).length ≤ 4 := decimal_length (k := 4) (by decide) h
  refine ⟨raw, (decimal k).length, canonicalJson_of hs hraw, ?_, by omega⟩
  unfold encodedLength
  rw [encodeUtf8_visible hlt]
  exact congrArg Except.ok (List.length_map UInt8.ofNat)

theorem manyFiles_nth (k : Nat) : manyFiles (nthSource k).absolutePath =
    .ok (.directory { device := 1, inode := k, size := 0, mtimeNs := 0 } []) := by
  show Except.ok (Node.directory { device := 1, inode := ofDigits 0 (decimal k), size := 0, mtimeNs := 0 } []) = _
  rw [ofDigits_decimal]

theorem require_of {c : Prop} [Decidable c] {code : String} (h : c) : require c code = .ok () :=
  if_pos h

/-- One directory more. -/
theorem add_nth {k : Nat} (h : k < 10000) {s : Inventory} (hcount : s.entries.length + 1 ≤ 2000)
    (hroom : s.metadata + 400 ≤ 1000000) :
    ∃ s', add plainUnicode manyBudget 4300 (decimal k)
        (.directory { device := 1, inode := k, size := 0, mtimeNs := 0 } []) s = .ok s' ∧
      s'.entries = s.entries ++ [nthEntry k] ∧ s'.metadata ≤ s.metadata + 400 := by
  obtain ⟨raw, path, hraw, hpath, hsize⟩ := encoded_nthEntry h
  refine ⟨{ s with entries := s.entries ++ [nthEntry k], metadata := s.metadata + (raw.length + 128 + path) },
    ?_, rfl, by show s.metadata + _ ≤ _; omega⟩
  have henter : s.enter plainUnicode manyBudget (decimal k) = .ok () := by
    unfold Inventory.enter
    rw [require_of (show s.entries.length + 1 ≤ manyBudget.maxFiles from hcount), ok_bind, checkRelative_nth]
    rfl
  have hcharge : s.charge manyBudget 4300 (nthEntry k) = .ok { s with
      entries := s.entries ++ [nthEntry k], metadata := s.metadata + (raw.length + 128 + path) } := by
    have hwithin : s.metadata + (raw.length + 128 + path) ≤ 1000000 := by omega
    unfold Inventory.charge
    rw [hraw, ok_bind, show encodedLength (nthEntry k).path = .ok path from hpath, ok_bind,
      require_of (show _ ≤ manyBudget.maxMetadataBytes from hwithin), ok_bind]
  unfold add
  rw [henter, ok_bind]
  show (Inventory.charge manyBudget 4300 s (nthEntry k) >>= _) = _
  rw [hcharge, ok_bind]
  unfold addChildren
  rfl

theorem addSources_many {ks : List Nat} (hks : ∀ k ∈ ks, k < 10000) {s : Inventory}
    (hcount : s.entries.length + ks.length ≤ 2000) (hroom : s.metadata + 400 * ks.length ≤ 1000000) :
    ∃ s', addSources plainUnicode manyBudget 4300 manyFiles (ks.map nthSource) s = .ok s' ∧
      s'.entries = s.entries ++ ks.map nthEntry := by
  induction ks generalizing s with
  | nil => exact ⟨s, rfl, (List.append_nil _).symm⟩
  | cons k ks ih =>
      obtain ⟨hk, hrest⟩ := List.forall_mem_cons.mp hks
      rw [List.length_cons] at hcount
      rw [List.length_cons, Nat.mul_succ, ← Nat.add_assoc] at hroom
      have hhere : s.metadata + 400 ≤ 1000000 :=
        Nat.le_trans (Nat.add_le_add_right (Nat.le_add_right _ _) _) hroom
      obtain ⟨s', hadd, hentries, hmetadata⟩ := add_nth hk (s := s) (by omega) hhere
      obtain ⟨t, ht, hall⟩ := ih hrest (s := s') (by
        rw [hentries, List.length_append, List.length_singleton]
        omega) (by omega)
      refine ⟨t, ?_, ?_⟩
      · rw [List.map_cons]
        unfold addSources
        rw [show (nthSource k).relativePath = decimal k from rfl, checkRelative_nth,
          show refuse none = .ok () from rfl, ok_bind, require_of (show (nthSource k).absolutePath.head? = some 47 from rfl),
          ok_bind, manyFiles_nth, ok_bind, hadd, ok_bind, ht]
      · rw [hall, hentries, List.append_assoc]
        rfl

theorem parents_digits {s : Text} (h : ∀ c ∈ s, 48 ≤ c ∧ c ≤ 57) : parents s = [] := by
  unfold parents
  rw [List.filterMap_eq_nil_iff]
  intro k _
  rw [if_neg]
  cases hdrop : (s.drop k).head? with
  | none => exact nofun
  | some c =>
      have := h c (List.mem_of_mem_drop (List.mem_of_mem_head? hdrop))
      simp only [Option.any_some, beq_iff_eq]
      omega

theorem checkCollisions_many {ks : List Nat} (hks : ks.Nodup) (directories : List Text) :
    checkCollisions plainUnicode (ks.map decimal) directories = none := by
  unfold checkCollisions firstOf
  dsimp only
  have hfolded : (ks.map decimal).map plainUnicode.casefold = ks.map decimal := List.map_id _
  have hdigits : ∀ s ∈ ks.map decimal, ∀ c ∈ s, 48 ≤ c ∧ c ≤ 57 := by
    intro s hs c hc
    obtain ⟨k, -, rfl⟩ := List.mem_map.mp hs
    exact digit_bounds hc
  rw [hfolded]
  refine (firstError_cons _ _).mpr ⟨?_, (firstError_cons _ _).mpr ⟨failsWith_none.mpr ?_,
    (firstError_cons _ _).mpr ⟨failsWith_none.mpr ?_, rfl⟩⟩⟩
  · induction ks with
    | nil => rfl
    | cons k ks ih =>
        exact (firstError_cons _ _).mpr ⟨checkRelative_nth k, ih (List.nodup_cons.mp hks).2
          (List.map_id _) (fun s hs => hdigits s (List.mem_cons_of_mem _ hs))⟩
  · rw [not_not]
    exact hks.map (fun k l h => by rw [← ofDigits_decimal k, h, ofDigits_decimal])
  · rw [Bool.not_eq_true, List.any_eq_false]
    intro s hs
    rw [parents_digits (hdigits s hs)]
    exact nofun

/-- A manifest of such entries. -/
theorem fits_many {entries : List Entry} (h : ∀ e ∈ entries, ∃ k, k < 10000 ∧ nthEntry k = e) :
    Value (Document.toJson { evidenceRefs := [ascii "r"], entries }) ∧
      Storable 4300 (Document.toJson { evidenceRefs := [ascii "r"], entries }) ∧
      cost (Document.toJson { evidenceRefs := [ascii "r"], entries }) ≤ 100 + 201 * entries.length := by
  have hword : ∀ {s : Text}, isPlainText s = true → PyText s ∧ SoundText s :=
    fun hs => ⟨pyText_plain hs, soundText_ascii hs⟩
  have hall : ValueItems (entries.map Entry.toJson) ∧ StorableItems 4300 (entries.map Entry.toJson) ∧
      costItems (entries.map Entry.toJson) ≤ 200 * entries.length := by
    induction entries with
    | nil => exact ⟨trivial, trivial, Nat.zero_le _⟩
    | cons e es ih =>
        obtain ⟨he, hes⟩ := List.forall_mem_cons.mp h
        obtain ⟨k, hk, rfl⟩ := he
        obtain ⟨hv, hs, hcost⟩ := fits_nthEntry hk
        obtain ⟨hvs, hss, hcosts⟩ := ih hes
        refine ⟨⟨hv, hvs⟩, ⟨hs, hss⟩, ?_⟩
        rw [List.length_cons, Nat.mul_succ, Nat.add_comm]
        exact Nat.add_le_add hcost hcosts
  obtain ⟨hvs, hss, hcosts⟩ := hall
  refine ⟨⟨rfl, ⟨(hword rfl).1, (hword rfl).1⟩, ⟨(hword rfl).1, (hword rfl).1, trivial⟩, ⟨(hword rfl).1, hvs⟩, trivial⟩,
    ⟨⟨(hword rfl).2, (hword rfl).2⟩, ⟨(hword rfl).2, (hword rfl).2, trivial⟩, ⟨(hword rfl).2, hss⟩, trivial⟩, ?_⟩
  have hschema : textSize (ascii "schema") = 6 := by decide
  have hrefs : textSize (ascii "evidence_refs") = 13 := by decide
  have hentries : textSize (ascii "entries") = 7 := by decide
  have hname : textSize SCHEMA = 25 := by decide
  have href : textSize (ascii "r") = 1 := by decide
  simp only [Document.toJson, refsJson, cost, costFields, costItems, List.map_cons, List.map_nil,
    List.length_cons, List.length_nil, List.length_map, hschema, hrefs, hentries, hname, href]
  omega

/-- **The scan of many directories** is within the budget. -/
theorem scan_many : ∃ m, scan plainUnicode manyBudget 4300 manyFiles ((List.range 1250).map nthSource) [ascii "r"]
    = .ok m ∧ m.nodes = 10005 := by
  have hks : ∀ k ∈ List.range 1250, k < 10000 := fun k hk =>
    Nat.lt_trans (List.mem_range.mp hk) (by decide)
  obtain ⟨head, hhead, hlength⟩ : ∃ raw, canonicalJson 4300
      (.obj [(ascii "schema", .str SCHEMA), (ascii "evidence_refs", refsJson [ascii "r"])]) = .ok raw ∧
      raw.length ≤ 100 := by
    have hword : ∀ {s : Text}, isPlainText s = true → PyText s ∧ SoundText s :=
      fun hs => ⟨pyText_plain hs, soundText_ascii hs⟩
    have hv : Value (.obj [(ascii "schema", .str SCHEMA), (ascii "evidence_refs", refsJson [ascii "r"])]) :=
      ⟨rfl, ⟨(hword rfl).1, (hword rfl).1⟩, ⟨(hword rfl).1, (hword rfl).1, trivial⟩, trivial⟩
    have hs : Storable 4300 (.obj [(ascii "schema", .str SCHEMA), (ascii "evidence_refs", refsJson [ascii "r"])]) :=
      ⟨⟨(hword rfl).2, (hword rfl).2⟩, ⟨(hword rfl).2, (hword rfl).2, trivial⟩, trivial⟩
    obtain ⟨raw, hraw, hcost⟩ := dumps_of_storable hv hs
    exact ⟨raw, canonicalJson_of hs hraw, by rw [hcost]; decide⟩
  obtain ⟨s, hs, hentries⟩ := addSources_many hks (s := { entries := [], logical := 0, metadata := head.length })
    (by rw [List.length_range]; exact (by decide : 0 + 1250 ≤ 2000))
    (by rw [List.length_range]; exact Nat.le_trans (Nat.add_le_add_right hlength _) (by decide))
  have hall : s.entries = (List.range 1250).map nthEntry := hentries.trans (List.nil_append _)
  have hnames : s.names = (List.range 1250).map decimal := by
    unfold Inventory.names
    rw [hall, List.map_map]
    rfl
  have hperm : (sortEntries s.entries).Perm ((List.range 1250).map nthEntry) :=
    (List.perm_insertionSort _ _).trans (List.Perm.of_eq hall)
  have hcount : (sortEntries s.entries).length = 1250 := by
    rw [hperm.length_eq, List.length_map, List.length_range]
  obtain ⟨hv, hstorable, hcost⟩ := fits_many (fun e (he : e ∈ sortEntries s.entries) => by
    obtain ⟨k, hk, rfl⟩ := List.mem_map.mp (hperm.mem_iff.mp he)
    exact ⟨k, hks k hk, rfl⟩)
  obtain ⟨raw, hraw, hsize⟩ := dumps_of_storable hv hstorable
  refine ⟨{ evidenceRefs := [ascii "r"], entries := sortEntries s.entries }, ?_, ?_⟩
  · have hparents : s.names.flatMap parents = [] := by
      rw [hnames, List.flatMap_eq_nil_iff]
      intro name hname
      obtain ⟨k, -, rfl⟩ := List.mem_map.mp hname
      exact parents_digits (fun c hc => digit_bounds hc)
    unfold scan
    rw [require_of (show (List.range 1250).map nthSource ≠ [] by
        rw [Ne, List.map_eq_nil_iff, List.range_eq_nil]; decide), ok_bind,
      require_of (show ((List.range 1250).map nthSource).length ≤ manyBudget.maxFiles by
        rw [List.length_map, List.length_range]; decide), ok_bind,
      show chargeRefs manyBudget [ascii "r"] 32 = .ok () from rfl, ok_bind, hhead, ok_bind, hs, ok_bind, hparents,
      show addParents manyBudget 4300 [] s = .ok s from rfl, ok_bind, hnames,
      checkCollisions_many List.nodup_range, show refuse none = .ok () from rfl, ok_bind,
      canonicalJson_of hstorable hraw, ok_bind, require_of (show raw.length ≤ manyBudget.maxMetadataBytes by
        rw [hsize]; rw [hcount] at hcost; exact Nat.le_trans hcost (by decide)), ok_bind]
  · show 4 + 1 + ((sortEntries s.entries).map (fun e => e.kind.nodes)).sum = 10005
    rw [(hperm.map _).sum_nat, List.map_map, show (fun e : Entry => e.kind.nodes) ∘ nthEntry = fun _ => 8 from rfl,
      List.map_const', List.sum_replicate_nat, List.length_range]

/-- **A manifest within its budget is refused** when it is stored. -/
theorem manifest_refused : ∃ m,
    scan plainUnicode manyBudget 4300 manyFiles ((List.range 1250).map nthSource) [ascii "r"] = .ok m ∧
      ¬ Persists (hostJournal manyBudget 1 600 4300 (ascii "t1") .null) (ascii "manifest") m.toJson := by
  obtain ⟨m, hscan, hnodes⟩ := scan_many
  refine ⟨m, hscan, fun hpersists => ?_⟩
  obtain ⟨raw, h⟩ := admitted_scan hscan
  rw [persists_iff (by decide) h.lists.plain h.digits h.encoded h.length (by decide), h.lists.nodes,
    hnodes] at hpersists
  exact absurd hpersists.2 (by decide)

/-- The manifest of one empty directory, as it comes with a package. -/
def sampleManifest : Bytes :=
  (dumps (Document.toJson { evidenceRefs := [ascii "r"], entries := [nthEntry 3] })).getD []

theorem manifest_persisted_sample :
    (∃ m, scan plainUnicode manyBudget 4300 manyFiles [nthSource 3] [ascii "r"] = .ok m ∧
      Persists (hostJournal manyBudget 1 600 4300 (ascii "t1") .null) (ascii "manifest") m.toJson) ∧
    ∃ v m, validatedManifest plainUnicode manyBudget 4300 sampleManifest = .ok (v, m) ∧
      Persists (hostJournal manyBudget 1 600 4300 (ascii "t1") .null) (ascii "manifest") v := by
  have hscan : (scan plainUnicode manyBudget 4300 manyFiles [nthSource 3] [ascii "r"]).toOption.any
      (fun m => m.nodes ≤ 10000) = true := by decide +kernel
  have hvalidated : (validatedManifest plainUnicode manyBudget 4300 sampleManifest).toOption.any
      (fun r => r.2.nodes ≤ 10000) = true := by decide +kernel
  constructor
  · cases h : scan plainUnicode manyBudget 4300 manyFiles [nthSource 3] [ascii "r"] with
    | error code => rw [h] at hscan; exact nomatch hscan
    | ok m =>
        rw [h] at hscan
        exact ⟨m, rfl, (manifest_persisted.1 _ _ _ m h).mpr (of_decide_eq_true hscan)⟩
  · cases h : validatedManifest plainUnicode manyBudget 4300 sampleManifest with
    | error code => rw [h] at hvalidated; exact nomatch hvalidated
    | ok r =>
        rw [h] at hvalidated
        exact ⟨r.1, r.2, rfl, (manifest_persisted.2 _ r.1 r.2 h).mpr (of_decide_eq_true hvalidated)⟩

end Many

end Manifest

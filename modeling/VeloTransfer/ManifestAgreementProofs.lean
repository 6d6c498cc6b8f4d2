import VeloTransfer.ManifestEvidenceProofs

/-! # Producer and validator of a manifest

    The scan orders, counts and compares as it walks; the validator checks the
    flat list that it is given.  Here both are compared with one description of
    a manifest, `WellFormed`:

    * `wellFormed_validated` — what the validator accepts is well formed;
    * `validated_of_wellFormed` — the canonical document of a well-formed manifest
      is accepted, and read as that manifest;
    * `wellFormed_scan` — what the scan returns is well formed;
    * `manifest_agreement` — so every scanned manifest is accepted under the same
      budget. -/

namespace ManifestAgreement

open CanonicalJson JsonLine BoundedJson JsonDict JsonLimits Sha256 GuestTerminal Manifest ExceptRules

/-! ## Paths and their parents -/

/-- A parent of a path is what stands before one of its slashes. -/
theorem mem_parents {p path : Text} : p ∈ parents path ↔ ∃ rest, path = p ++ 47 :: rest := by
  unfold parents
  rw [List.mem_filterMap]
  constructor
  · rintro ⟨k, hk, h⟩
    by_cases hslash : ((path.drop k).head?.any (· == 47)) = true
    · rw [if_pos hslash] at h
      obtain rfl := Option.some.inj h
      cases hdrop : path.drop k with
      | nil =>
          rw [hdrop] at hslash
          exact absurd hslash nofun
      | cons c rest =>
          rw [hdrop] at hslash
          have hc : c = 47 := beq_iff_eq.mp hslash
          refine ⟨rest, ?_⟩
          rw [← hc, ← hdrop, List.take_append_drop]
    · rw [if_neg hslash] at h
      exact absurd h nofun
  · rintro ⟨rest, rfl⟩
    refine ⟨p.length, List.mem_range.mpr ?_, ?_⟩
    · rw [List.length_append, List.length_cons]
      omega
    · rw [List.drop_left, List.take_left]
      rfl

theorem parents_trans {p q path : Text} (hq : q ∈ parents p) (hp : p ∈ parents path) :
    q ∈ parents path := by
  obtain ⟨rest, rfl⟩ := mem_parents.mp hq
  obtain ⟨more, rfl⟩ := mem_parents.mp hp
  exact mem_parents.mpr ⟨rest ++ 47 :: more, by rw [List.append_assoc, List.cons_append]⟩

/-- `str.casefold` goes over a text character by character, and a slash has no
    case. -/
structure FoldsByCharacter (u : Unicode) : Prop where
  append : ∀ s t, u.casefold (s ++ t) = u.casefold s ++ u.casefold t
  slash : u.casefold [47] = [47]

theorem FoldsByCharacter.parents {u : Unicode} (hu : FoldsByCharacter u) {p path : Text}
    (hp : p ∈ parents path) : u.casefold p ∈ parents (u.casefold path) := by
  obtain ⟨rest, rfl⟩ := mem_parents.mp hp
  refine mem_parents.mpr ⟨u.casefold rest, ?_⟩
  rw [hu.append, show (47 :: rest : Text) = [47] ++ rest from rfl, hu.append, hu.slash]
  rfl

/-! ## Collisions -/

/-- What `_check_collisions` asks of the names and of the directories among them. -/
structure Apart (u : Unicode) (names directories : List Text) : Prop where
  relative : ∀ name ∈ names, checkRelative u name = none
  distinct : (names.map u.casefold).Nodup
  above : ∀ name ∈ names, ∀ p ∈ parents (u.casefold name), p ∈ names.map u.casefold →
    p ∈ directories.map u.casefold

theorem firstOf_none {α : Type} {check : α → Option String} {xs : List α} :
    firstOf check xs = none ↔ ∀ x ∈ xs, check x = none := by
  unfold firstOf
  induction xs with
  | nil => exact ⟨fun _ _ hx => absurd hx List.not_mem_nil, fun _ => rfl⟩
  | cons x xs ih =>
      rw [List.map_cons, firstError_cons, ih, List.forall_mem_cons]

theorem checkCollisions_none {u : Unicode} {names directories : List Text} :
    checkCollisions u names directories = none ↔ Apart u names directories := by
  unfold checkCollisions
  rw [firstError_cons, firstError_cons, firstError_cons, firstOf_none, failsWith_none,
    failsWith_none, not_not]
  constructor
  · rintro ⟨hrelative, hdistinct, habove, -⟩
    refine ⟨hrelative, hdistinct, fun name hname p hp hmem => ?_⟩
    by_contra hdirectory
    refine habove (List.any_eq_true.mpr ⟨_, List.mem_map_of_mem hname,
      List.any_eq_true.mpr ⟨p, hp, List.contains_iff_mem.mpr (List.mem_filter.mpr ⟨hmem, ?_⟩)⟩⟩)
    simpa using hdirectory
  · rintro ⟨hrelative, hdistinct, habove⟩
    refine ⟨hrelative, hdistinct, fun hany => ?_, rfl⟩
    obtain ⟨f, hf, hany⟩ := List.any_eq_true.mp hany
    obtain ⟨p, hp, hfile⟩ := List.any_eq_true.mp hany
    obtain ⟨name, hname, rfl⟩ := List.mem_map.mp hf
    obtain ⟨hmem, hdirectory⟩ := List.mem_filter.mp (List.contains_iff_mem.mp hfile)
    have hin := habove name hname p hp hmem
    rw [List.contains_iff_mem.mpr hin] at hdirectory
    exact absurd hdirectory nofun

/-- The order of the names does not count. -/
theorem Apart.perm {u : Unicode} {names names' directories directories' : List Text}
    (h : Apart u names directories) (hnames : names.Perm names')
    (hdirectories : ∀ d ∈ directories, d ∈ directories') : Apart u names' directories' where
  relative name hname := h.relative name (hnames.mem_iff.mpr hname)
  distinct := (hnames.map u.casefold).nodup_iff.mp h.distinct
  above name hname p hp hmem := by
    have hin := h.above name (hnames.mem_iff.mpr hname) p hp ((hnames.map u.casefold).mem_iff.mpr hmem)
    obtain ⟨d, hd, rfl⟩ := List.mem_map.mp hin
    exact List.mem_map_of_mem (hdirectories d hd)

/-! ## Well-formed manifests -/

/-- The bytes of content of an entry. -/
def contentSize (e : Entry) : Nat :=
  match e.kind with
  | .file size _ _ => size
  | .directory _ => 0

/-- The bytes of content of a manifest. -/
def logicalBytes (entries : List Entry) : Nat := (entries.map contentSize).sum

/-- A file has a digest, and the identity of a file of its size. -/
def SoundEntry (e : Entry) : Prop :=
  match e.kind with
  | .file size sha256 identity => isHex sha256 = true ∧ identity.size = size
  | .directory _ => True

def names (entries : List Entry) : List Text := entries.map Entry.path

/-- `{e["path"] for e in entries if e["type"] == "directory"}`. -/
def directoryNames (entries : List Entry) : List Text :=
  names (entries.filter fun e => e.kind.isDirectory)

/-- A manifest as both sides mean it: canonical relative paths in strict order,
    without duplicates or collisions of their folded case; the parents of every
    path there, as directories; no file above another entry; and the number of the
    entries and the sum of their sizes within the budget. -/
structure WellFormed (u : Unicode) (b : Budget) (m : Document) : Prop where
  relative : ∀ e ∈ m.entries, checkRelative u e.path = none
  sorted : m.entries.Pairwise fun e f => keyLt e.path f.path = true
  distinct : (m.entries.map fun e => u.casefold e.path).Nodup
  closed : ∀ e ∈ m.entries, ∀ p ∈ parents e.path, ∃ d ∈ m.entries, d.path = p ∧ d.kind.isDirectory = true
  leaves : ∀ e ∈ m.entries, ∀ f ∈ m.entries, f.kind.isDirectory = false → f.path ∉ parents e.path
  apart : Apart u (names m.entries) (directoryNames m.entries)
  sound : ∀ e ∈ m.entries, SoundEntry e
  count : m.entries.length ≤ b.maxFiles
  logical : logicalBytes m.entries ≤ b.maxLogicalBytes

theorem mem_directoryNames {entries : List Entry} {p : Text} :
    p ∈ directoryNames entries ↔ ∃ d ∈ entries, d.path = p ∧ d.kind.isDirectory = true := by
  unfold directoryNames names
  rw [List.mem_map]
  constructor
  · rintro ⟨d, hd, rfl⟩
    obtain ⟨hmem, hdirectory⟩ := List.mem_filter.mp hd
    exact ⟨d, hmem, rfl, hdirectory⟩
  · rintro ⟨d, hd, rfl, hdirectory⟩
    exact ⟨d, List.mem_filter.mpr ⟨hd, hdirectory⟩, rfl⟩

/-- Where no two names fold alike, a path has one entry. -/
theorem entry_unique {u : Unicode} {entries : List Entry}
    (hdistinct : ((names entries).map u.casefold).Nodup) {e f : Entry} (he : e ∈ entries)
    (hf : f ∈ entries) (hfold : u.casefold e.path = u.casefold f.path) : e = f := by
  rw [names, List.map_map] at hdistinct
  exact List.inj_on_of_nodup_map hdistinct he hf hfold

/-! ## The order of the entries -/

/-- The relation that `sortEntries` sorts by. -/
def NotAfter (e f : Entry) : Prop := keyLt f.path e.path = false

instance : DecidableRel NotAfter := fun _ _ => inferInstanceAs (Decidable (_ = _))

instance : Std.Total NotAfter where
  total e f := by
    unfold NotAfter
    by_cases heq : e.path = f.path
    · rw [heq]
      exact Or.inl (keyLt_irrefl _)
    · cases hlt : keyLt f.path e.path with
      | false => exact Or.inl rfl
      | true =>
          refine Or.inr ?_
          by_contra h
          have h : keyLt e.path f.path = true := by simpa using h
          have hself := keyLt_trans h hlt
          rw [keyLt_irrefl] at hself
          exact absurd hself nofun

instance : IsTrans Entry NotAfter where
  trans e f g hef hfg := by
    unfold NotAfter at hef hfg ⊢
    by_contra h
    have h : keyLt g.path e.path = true := by simpa using h
    by_cases heq : e.path = f.path
    · rw [heq, hfg] at h
      exact absurd h nofun
    · have hlt := keyLt_trans h (keyLt_total (Ne.symm heq) hef)
      rw [hfg] at hlt
      exact absurd hlt nofun

theorem sortEntries_eq (entries : List Entry) : sortEntries entries = entries.insertionSort NotAfter := by
  unfold sortEntries
  congr

theorem sortEntries_perm (entries : List Entry) : (sortEntries entries).Perm entries := by
  rw [sortEntries_eq]
  exact List.perm_insertionSort _ _

/-- Sorted entries with different paths are strictly sorted. -/
theorem strictly_sorted {u : Unicode} {entries : List Entry}
    (hdistinct : ((names entries).map u.casefold).Nodup) (hsorted : entries.Pairwise NotAfter) :
    entries.Pairwise fun e f => keyLt e.path f.path = true := by
  have hne : entries.Pairwise fun e f => e.path ≠ f.path := by
    rw [names, List.map_map, List.Nodup, List.pairwise_map] at hdistinct
    exact hdistinct.imp fun hfold heq => hfold (congrArg u.casefold heq)
  exact (hsorted.and hne).imp fun h => keyLt_total (Ne.symm h.2) h.1

/-! ## What the scan gathers -/

variable {u : Unicode} {b : Budget} {digits : Nat}

/-- The accumulators of the scan at any time. -/
structure Gathered (b : Budget) (s : Inventory) : Prop where
  sound : ∀ e ∈ s.entries, SoundEntry e
  count : s.entries.length ≤ b.maxFiles
  total : s.logical = logicalBytes s.entries
  logical : s.logical ≤ b.maxLogicalBytes

theorem logicalBytes_append (es : List Entry) (e : Entry) :
    logicalBytes (es ++ [e]) = logicalBytes es + contentSize e := by
  simp [logicalBytes]

theorem charge_ok {s s' : Inventory} {e : Entry} (h : s.charge b digits e = .ok s') :
    s'.entries = s.entries ++ [e] ∧ s'.logical = s.logical := by
  obtain ⟨_, -, h⟩ := bind_ok h
  obtain ⟨_, -, h⟩ := bind_ok h
  obtain ⟨_, -, h⟩ := bind_ok h
  obtain rfl := Except.ok.inj h
  exact ⟨rfl, rfl⟩

theorem enter_ok {s : Inventory} {relative : Text} {x : Unit} (h : s.enter u b relative = .ok x) :
    s.entries.length + 1 ≤ b.maxFiles := by
  obtain ⟨_, hcount, -⟩ := bind_ok h
  exact require_ok hcount

/-- An entry that is charged, with its content counted. -/
theorem Gathered.push {s s' : Inventory} (hs : Gathered b s) {e : Entry} (he : SoundEntry e)
    (hcount : s.entries.length + 1 ≤ b.maxFiles) (hentries : s'.entries = s.entries ++ [e])
    (htotal : s'.logical = s.logical + contentSize e) (hfits : s'.logical ≤ b.maxLogicalBytes) :
    Gathered b s' where
  sound f hf := by
    rw [hentries] at hf
    rcases List.mem_append.mp hf with hf | hf
    · exact hs.sound f hf
    · exact List.mem_singleton.mp hf ▸ he
  count := by
    rw [hentries, List.length_append, List.length_singleton]
    exact hcount
  total := by rw [htotal, hentries, logicalBytes_append, hs.total]
  logical := hfits

mutual

theorem gathered_add : ∀ (node : Node) (relative : Text) (s s' : Inventory), Gathered b s →
    add u b digits relative node s = .ok s' → Gathered b s'
  | .directory identity children, relative, s, s', hs, h => by
      rw [Manifest.add] at h
      obtain ⟨_, henter, h⟩ := bind_ok h
      obtain ⟨t, hcharge, h⟩ := bind_ok h
      obtain ⟨hentries, hlogical⟩ := charge_ok hcharge
      refine gathered_addChildren children relative t s' ?_ h
      exact hs.push (e := { path := relative, kind := .directory (some identity) }) trivial
        (enter_ok henter) hentries hlogical (hlogical ▸ hs.logical)
  | .file content identity, relative, s, s', hs, h => by
      rw [Manifest.add] at h
      obtain ⟨_, henter, h⟩ := bind_ok h
      obtain ⟨_, hfits, h⟩ := bind_ok h
      obtain ⟨_, -, h⟩ := bind_ok h
      obtain ⟨t, hcharge, h⟩ := bind_ok h
      obtain ⟨hentries, hlogical⟩ := charge_ok hcharge
      obtain rfl := Except.ok.inj h
      have htotal : t.logical + identity.size = s.logical + identity.size := by rw [hlogical]
      exact hs.push
        (e := { path := relative, kind := .file identity.size (hexdigest content) identity })
        ⟨isHex_hexdigest content, rfl⟩ (enter_ok henter) hentries htotal
        (Nat.le_trans (Nat.le_of_eq htotal) (require_ok hfits))
  | .other, _, _, _, _, h => by
      rw [Manifest.add] at h
      obtain ⟨_, -, h⟩ := bind_ok h
      exact absurd h nofun

theorem gathered_addChildren : ∀ (children : List (Text × Node)) (relative : Text)
    (s s' : Inventory), Gathered b s → addChildren u b digits relative children s = .ok s' →
    Gathered b s'
  | [], _, s, s', hs, h => by
      rw [addChildren] at h
      exact Except.ok.inj h ▸ hs
  | (name, node) :: rest, relative, s, s', hs, h => by
      rw [addChildren] at h
      obtain ⟨t, hfirst, h⟩ := bind_ok h
      exact gathered_addChildren rest relative t s'
        (gathered_add node (relative ++ 47 :: name) s t hs hfirst) h

end

theorem gathered_addSources {files : Text → Except String Node} {sources : List Source}
    {s s' : Inventory} (hs : Gathered b s) (h : addSources u b digits files sources s = .ok s') :
    Gathered b s' := by
  induction sources generalizing s with
  | nil => exact Except.ok.inj h ▸ hs
  | cons source rest ih =>
      obtain ⟨_, -, h⟩ := bind_ok h
      obtain ⟨_, -, h⟩ := bind_ok h
      obtain ⟨node, -, h⟩ := bind_ok h
      obtain ⟨t, hadd, h⟩ := bind_ok h
      exact ih (gathered_add node source.relativePath s t hs hadd) h

/-- The virtual directories: every parent that was asked for is there, and
    nothing else is new. -/
theorem gathered_addParents {ps : List Text} {s s' : Inventory} (hs : Gathered b s)
    (h : addParents b digits ps s = .ok s') :
    Gathered b s' ∧ (∀ name ∈ s.names, name ∈ s'.names) ∧ (∀ p ∈ ps, p ∈ s'.names) ∧
      ∀ name ∈ s'.names, name ∈ s.names ∨ name ∈ ps := by
  induction ps generalizing s with
  | nil =>
      obtain rfl := Except.ok.inj h
      exact ⟨hs, fun _ hn => hn, fun _ hp => absurd hp List.not_mem_nil, fun _ hn => Or.inl hn⟩
  | cons p ps ih =>
      obtain ⟨t, hfirst, h⟩ := bind_ok h
      unfold addParent at hfirst
      by_cases hin : s.names.contains p = true
      · rw [if_pos hin] at hfirst
        obtain rfl := Except.ok.inj hfirst
        obtain ⟨hgathered, hkeep, hnew, honly⟩ := ih hs h
        refine ⟨hgathered, hkeep, ?_, fun name hname => (honly name hname).imp_right
          (List.mem_cons_of_mem _)⟩
        exact List.forall_mem_cons.mpr ⟨hkeep p (List.contains_iff_mem.mp hin), hnew⟩
      · rw [if_neg hin] at hfirst
        obtain ⟨_, hcount, hcharge⟩ := bind_ok hfirst
        obtain ⟨hentries, hlogical⟩ := charge_ok hcharge
        have ht := hs.push (e := { path := p, kind := .directory none }) trivial
          (require_ok hcount) hentries hlogical (hlogical ▸ hs.logical)
        have hnames : t.names = s.names ++ [p] := by
          rw [Inventory.names, hentries, List.map_append]
          rfl
        obtain ⟨hgathered, hkeep, hnew, honly⟩ := ih ht h
        rw [hnames] at hkeep honly
        refine ⟨hgathered, fun name hname => hkeep name (List.mem_append_left _ hname), ?_, ?_⟩
        · exact List.forall_mem_cons.mpr
            ⟨hkeep p (List.mem_append_right _ (List.mem_singleton_self p)), hnew⟩
        · intro name hname
          rcases honly name hname with hname | hname
          · rcases List.mem_append.mp hname with hname | hname
            · exact Or.inl hname
            · exact Or.inr (List.mem_singleton.mp hname ▸ List.mem_cons_self)
          · exact Or.inr (List.mem_cons_of_mem _ hname)

/-- A name that is a parent is a directory: a file would be above another entry. -/
theorem directory_of_parent (hu : FoldsByCharacter u) {entries : List Entry}
    (hapart : Apart u (names entries) (directoryNames entries)) {name p : Text}
    (hname : name ∈ names entries) (hp : p ∈ parents name) (hmem : p ∈ names entries) :
    p ∈ directoryNames entries := by
  have hin := hapart.above name hname (u.casefold p) (hu.parents hp) (List.mem_map_of_mem hmem)
  obtain ⟨q, hq, hfold⟩ := List.mem_map.mp hin
  obtain ⟨e, he, rfl⟩ := List.mem_map.mp hmem
  obtain ⟨d, hd, rfl, hdirectory⟩ := mem_directoryNames.mp hq
  obtain rfl := entry_unique hapart.distinct hd he hfold
  exact mem_directoryNames.mpr ⟨d, hd, rfl, hdirectory⟩

/-- A list with its parents and without collisions, once it is sorted. -/
theorem wellFormed_of {entries : List Entry} {refs : List Text} (hsound : ∀ e ∈ entries, SoundEntry e)
    (hapart : Apart u (names entries) (directoryNames entries))
    (hclosed : ∀ name ∈ names entries, ∀ p ∈ parents name, p ∈ directoryNames entries)
    (hsorted : entries.Pairwise NotAfter) (hcount : entries.length ≤ b.maxFiles)
    (hlogical : logicalBytes entries ≤ b.maxLogicalBytes) :
    WellFormed u b { evidenceRefs := refs, entries } where
  relative e he := hapart.relative e.path (List.mem_map_of_mem he)
  sorted := strictly_sorted hapart.distinct hsorted
  distinct := by
    have h := hapart.distinct
    rwa [names, List.map_map] at h
  closed e he p hp := mem_directoryNames.mp (hclosed e.path (List.mem_map_of_mem he) p hp)
  leaves e he f hf hfile hp := by
    obtain ⟨d, hd, hpath, hdirectory⟩ :=
      mem_directoryNames.mp (hclosed e.path (List.mem_map_of_mem he) f.path hp)
    obtain rfl := entry_unique hapart.distinct hd hf (congrArg u.casefold hpath)
    exact absurd (hdirectory.symm.trans hfile) nofun
  apart := hapart
  sound := hsound
  count := hcount
  logical := hlogical

theorem refuse_ok {error : Option String} {x : Unit} (h : refuse error = .ok x) : error = none := by
  unfold refuse at h
  split at h
  · rfl
  · exact absurd h nofun

/-- **What the scan returns is well formed**, under the budget that it had. -/
theorem wellFormed_scan (hu : FoldsByCharacter u) {files : Text → Except String Node}
    {sources : List Source} {refs : List Text} {m : Document}
    (h : scan u b digits files sources refs = .ok m) : WellFormed u b m := by
  obtain ⟨_, -, h⟩ := bind_ok h
  obtain ⟨_, -, h⟩ := bind_ok h
  obtain ⟨_, -, h⟩ := bind_ok h
  obtain ⟨head, -, h⟩ := bind_ok h
  obtain ⟨s, hsources, h⟩ := bind_ok h
  obtain ⟨t, hparents, h⟩ := bind_ok h
  obtain ⟨_, hcollisions, h⟩ := bind_ok h
  obtain ⟨raw, -, h⟩ := bind_ok h
  obtain ⟨_, -, h⟩ := bind_ok h
  obtain rfl := Except.ok.inj h
  have hstart : Gathered b { entries := [], logical := 0, metadata := head.length } :=
    ⟨fun _ he => absurd he List.not_mem_nil, Nat.zero_le _, rfl, Nat.zero_le _⟩
  obtain ⟨hgathered, hkeep, hnew, honly⟩ :=
    gathered_addParents (gathered_addSources hstart hsources) hparents
  have hapart : Apart u (names t.entries) (directoryNames t.entries) :=
    checkCollisions_none.mp (refuse_ok hcollisions)
  have hperm := sortEntries_perm t.entries
  have hnames : (names t.entries).Perm (names (sortEntries t.entries)) := (hperm.symm.map _)
  have hdirectories : ∀ d, d ∈ directoryNames t.entries ↔ d ∈ directoryNames (sortEntries t.entries) := by
    intro d
    rw [mem_directoryNames, mem_directoryNames]
    exact exists_congr fun e => and_congr_left' hperm.mem_iff.symm
  have hclosed : ∀ name ∈ names t.entries, ∀ p ∈ parents name, p ∈ directoryNames t.entries := by
    intro name hname p hp
    refine directory_of_parent hu hapart hname hp (hnew p ?_)
    -- a parent of a parent that was added is a parent of the path it was added for
    rcases honly name hname with hold | hadded
    · exact List.mem_flatMap.mpr ⟨name, hold, hp⟩
    · obtain ⟨path, hpath, hin⟩ := List.mem_flatMap.mp hadded
      exact List.mem_flatMap.mpr ⟨path, hpath, parents_trans hp hin⟩
  refine wellFormed_of (fun e he => hgathered.sound e (hperm.mem_iff.mp he))
    (hapart.perm hnames fun d hd => (hdirectories d).mp hd) ?_ ?_ ?_ ?_
  · intro name hname p hp
    exact (hdirectories p).mp (hclosed name (hnames.mem_iff.mpr hname) p hp)
  · rw [sortEntries_eq]
    exact List.pairwise_insertionSort _ _
  · rw [hperm.length_eq]
    exact hgathered.count
  · have hsum := (hperm.map contentSize).sum_nat
    unfold logicalBytes
    rw [hsum]
    exact Nat.le_trans (Nat.le_of_eq hgathered.total.symm) hgathered.logical

/-! ## What the validator accepts -/

theorem readFileEntry_ok {v : Json} {e : Entry} (h : readFileEntry v = .ok e) : SoundEntry e := by
  obtain ⟨fs, -, h⟩ := bind_ok h
  obtain ⟨path, -, h⟩ := bind_ok h
  obtain ⟨type, -, h⟩ := bind_ok h
  obtain ⟨size, -, h⟩ := bind_ok h
  obtain ⟨sha256, -, h⟩ := bind_ok h
  obtain ⟨identity, -, h⟩ := bind_ok h
  obtain ⟨_, hform, h⟩ := bind_ok h
  cases identity with
  | none => exact absurd h nofun
  | some i =>
      obtain ⟨_, hsize, h⟩ := bind_ok h
      obtain rfl := Except.ok.inj h
      exact ⟨(require_ok hform).2, require_ok hsize⟩

theorem readDirectoryEntry_ok {v : Json} {e : Entry} (h : readDirectoryEntry v = .ok e) :
    SoundEntry e := by
  obtain ⟨fs, -, h⟩ := bind_ok h
  obtain ⟨path, -, h⟩ := bind_ok h
  obtain ⟨type, -, h⟩ := bind_ok h
  obtain ⟨identity, -, h⟩ := bind_ok h
  obtain ⟨_, -, h⟩ := bind_ok h
  obtain rfl := Except.ok.inj h
  exact trivial

theorem readEntry_ok {v : Json} {e : Entry} (h : readEntry v = .ok e) : SoundEntry e := by
  unfold readEntry at h
  split at h
  · split at h
    · exact readFileEntry_ok h
    · split at h
      · exact readDirectoryEntry_ok h
      · exact absurd h nofun
  · exact absurd h nofun

theorem readEntries_ok {vs : List Json} {logical : Nat} {es : List Entry}
    (h : readEntries u b vs logical = .ok es) (hfits : logical ≤ b.maxLogicalBytes) :
    es.length = vs.length ∧ (∀ e ∈ es, SoundEntry e) ∧
      logical + logicalBytes es ≤ b.maxLogicalBytes := by
  induction vs generalizing logical es with
  | nil =>
      obtain rfl := Except.ok.inj h
      exact ⟨rfl, fun _ he => absurd he List.not_mem_nil, hfits⟩
  | cons v vs ih =>
      obtain ⟨e, he, h⟩ := bind_ok h
      obtain ⟨_, -, h⟩ := bind_ok h
      obtain ⟨_, hsum, h⟩ := bind_ok h
      obtain ⟨rest, hrest, h⟩ := bind_ok h
      obtain rfl := Except.ok.inj h
      obtain ⟨hlength, hsound, htotal⟩ := ih hrest (require_ok hsum)
      refine ⟨congrArg (· + 1) hlength, List.forall_mem_cons.mpr ⟨readEntry_ok he, hsound⟩, ?_⟩
      have hcons : logicalBytes (e :: rest) = contentSize e + logicalBytes rest := rfl
      rw [hcons, ← Nat.add_assoc]
      exact htotal

/-- **What the validator accepts is well formed**, and its document within the
    limit of metadata. -/
theorem wellFormed_validated {raw : Bytes} {v : Json} {m : Document}
    (h : validatedManifest u b digits raw = .ok (v, m)) :
    WellFormed u b m ∧ raw.length ≤ b.maxMetadataBytes := by
  obtain ⟨_, hlength, h⟩ := bind_ok h
  obtain ⟨v', -, h⟩ := bind_ok h
  obtain ⟨fs, -, h⟩ := bind_ok h
  obtain ⟨schema, -, h⟩ := bind_ok h
  obtain ⟨items, -, h⟩ := bind_ok h
  obtain ⟨refItems, -, h⟩ := bind_ok h
  obtain ⟨refs, -, h⟩ := bind_ok h
  obtain ⟨_, -, h⟩ := bind_ok h
  obtain ⟨encoded, -, h⟩ := bind_ok h
  obtain ⟨_, -, h⟩ := bind_ok h
  obtain ⟨_, hcount, h⟩ := bind_ok h
  obtain ⟨entries, hentries, h⟩ := bind_ok h
  obtain ⟨_, hclosed, h⟩ := bind_ok h
  obtain ⟨_, hcollisions, h⟩ := bind_ok h
  obtain ⟨_, hsorted, h⟩ := bind_ok h
  obtain ⟨rfl, rfl⟩ := Prod.mk.inj (Except.ok.inj h)
  obtain ⟨hcountEq, hsound, htotal⟩ := readEntries_ok hentries (Nat.zero_le _)
  rw [Nat.zero_add] at htotal
  refine ⟨wellFormed_of hsound (checkCollisions_none.mp (refuse_ok hcollisions)) ?_ ?_
    (hcountEq ▸ require_ok hcount) htotal, require_ok hlength⟩
  · intro name hname p hp
    have hall := List.all_eq_true.mp (require_ok hclosed) name hname
    exact List.contains_iff_mem.mp (List.all_eq_true.mp hall p hp)
  · rw [← require_ok hsorted, sortEntries_eq]
    exact List.pairwise_insertionSort _ _

/-! ## What was written is read -/

theorem refuse_none : refuse none = .ok () := rfl

theorem readText_str (code : String) (s : Text) : readText code (Json.str s).sortKeys = .ok s := rfl

theorem readInt_int (i : Int) : readInt (Json.int i).sortKeys = .ok i := rfl

theorem readNat_natCast (n : Nat) : readNat (Json.int n).sortKeys = .ok n := by
  show readNat (.int n) = .ok n
  rw [readNat, if_pos (Int.natCast_nonneg n), Int.toNat_natCast]

theorem readIdentity_toJson (i : FileIdentity) : readIdentity i.toJson.sortKeys = .ok (some i) := by
  have hkeys : hasKeys [(ascii "device", .int i.device), (ascii "inode", .int i.inode),
      (ascii "size", .int i.size), (ascii "mtime_ns", .int i.mtimeNs)]
      ["device", "inode", "size", "mtime_ns"] = true := rfl
  have hobject := object_sortKeys "invalid_manifest" hkeys
  unfold readIdentity
  split
  next heq =>
    have hlen := congrArg List.length (Json.obj.inj heq)
    rw [(sortFields_perm _).length_eq] at hlen
    exact absurd hlen nofun
  · rw [FileIdentity.toJson, hobject, ok_bind, field_sorted hkeys rfl, field_sorted hkeys rfl,
      field_sorted hkeys rfl, field_sorted hkeys rfl, readNat_natCast, ok_bind,
      readNat_natCast, ok_bind, readNat_natCast, ok_bind, readInt_int, ok_bind]

theorem readFileEntry_toJson {path sha256 : Text} {size : Nat} {identity : FileIdentity}
    (hsha256 : isHex sha256 = true) (hsize : identity.size = size) :
    readFileEntry (Entry.toJson { path, kind := .file size sha256 identity }).sortKeys
      = .ok { path, kind := .file size sha256 identity } := by
  have hkeys : hasKeys [(ascii "path", .str path), (ascii "type", .str (ascii "file")),
      (ascii "size", .int size), (ascii "sha256", .str sha256), (ascii "identity", identity.toJson)]
      ["path", "type", "size", "sha256", "identity"] = true := rfl
  unfold readFileEntry
  rw [Entry.toJson, object_sortKeys "invalid_manifest" hkeys, ok_bind, field_sorted hkeys rfl,
    field_sorted hkeys rfl, field_sorted hkeys rfl, field_sorted hkeys rfl,
    field_sorted hkeys rfl, readText_str, ok_bind, readText_str, ok_bind, readNat_natCast,
    ok_bind, readText_str, ok_bind, readIdentity_toJson, ok_bind, require_of ⟨rfl, hsha256⟩, ok_bind]
  show (require (identity.size = size) "invalid_manifest" >>= _) = _
  rw [require_of hsize, ok_bind]

theorem readDirectoryEntry_toJson (path : Text) (identity : Option FileIdentity) :
    readDirectoryEntry (Entry.toJson { path, kind := .directory identity }).sortKeys
      = .ok { path, kind := .directory identity } := by
  have hfields : ∃ v, readIdentity v.sortKeys = .ok identity ∧
      Entry.toJson { path, kind := .directory identity } = .obj [(ascii "path", .str path),
        (ascii "type", .str (ascii "directory")), (ascii "identity", v)] := by
    cases identity with
    | none => exact ⟨.obj [], rfl, rfl⟩
    | some i => exact ⟨i.toJson, readIdentity_toJson i, rfl⟩
  obtain ⟨v, hidentity, hfields⟩ := hfields
  have hkeys : hasKeys [(ascii "path", .str path), (ascii "type", .str (ascii "directory")),
      (ascii "identity", v)] ["path", "type", "identity"] = true := rfl
  unfold readDirectoryEntry
  rw [hfields, object_sortKeys "invalid_manifest" hkeys, ok_bind, field_sorted hkeys rfl,
    field_sorted hkeys rfl, field_sorted hkeys rfl, readText_str, ok_bind, readText_str, ok_bind,
    hidentity, ok_bind, require_of rfl, ok_bind]

/-- **An entry that was written is read as it was.** -/
theorem readEntry_toJson {e : Entry} (he : SoundEntry e) : readEntry e.toJson.sortKeys = .ok e := by
  obtain ⟨path, kind⟩ := e
  have htype : ∀ fs keys t, hasKeys fs keys = true → fs.lookup (ascii "type") = some (.str t) →
      get (Json.obj fs).sortKeys "type" = some (.str t) := by
    intro fs keys t hkeys ht
    unfold hasKeys at hkeys
    simp only [Bool.and_eq_true, Bool.not_eq_true'] at hkeys
    show (sortFields fs).lookup _ = _
    rw [lookup_sortFields hkeys.1.1, ht]
    rfl
  unfold readEntry
  cases kind with
  | file size sha256 identity =>
      rw [Entry.toJson, htype _ ["path", "type", "size", "sha256", "identity"] (ascii "file") rfl rfl]
      dsimp only
      rw [if_pos rfl]
      exact readFileEntry_toJson he.1 he.2
  | directory identity =>
      rw [Entry.toJson, htype _ ["path", "type", "identity"] (ascii "directory") rfl rfl]
      dsimp only
      rw [if_neg (by decide), if_pos rfl]
      exact readDirectoryEntry_toJson path identity

theorem readEntries_toJson {es : List Entry} {logical : Nat} (hsound : ∀ e ∈ es, SoundEntry e)
    (hrelative : ∀ e ∈ es, checkRelative u e.path = none)
    (hfits : logical + logicalBytes es ≤ b.maxLogicalBytes) :
    readEntries u b (es.map fun e => e.toJson.sortKeys) logical = .ok es := by
  induction es generalizing logical with
  | nil => rfl
  | cons e es ih =>
      have hcons : logicalBytes (e :: es) = contentSize e + logicalBytes es := rfl
      rw [hcons, ← Nat.add_assoc] at hfits
      have hsize : logical + contentSize e ≤ b.maxLogicalBytes := Nat.le_trans (Nat.le_add_right _ _) hfits
      rw [List.map_cons]
      unfold readEntries
      rw [readEntry_toJson (hsound e List.mem_cons_self), ok_bind,
        hrelative e List.mem_cons_self, refuse_none, ok_bind]
      show (require (logical + contentSize e ≤ b.maxLogicalBytes) "logical_budget_exceeded" >>= _) = _
      rw [require_of hsize, ok_bind]
      show (readEntries u b _ (logical + contentSize e) >>= _) = _
      rw [ih (fun f hf => hsound f (List.mem_cons_of_mem _ hf))
        (fun f hf => hrelative f (List.mem_cons_of_mem _ hf)) hfits, ok_bind]

theorem readRefs_refsJson (refs : List Text) : readRefs (refs.map Json.str) = .ok refs := by
  induction refs with
  | nil => rfl
  | cons ref refs ih =>
      show (readRefs (refs.map Json.str) >>= _) = _
      rw [ih, ok_bind]

theorem sortItems_eq_map (xs : List Json) : sortItems xs = xs.map Json.sortKeys := by
  induction xs with
  | nil => rfl
  | cons x xs ih =>
      show x.sortKeys :: sortItems xs = _
      rw [ih]
      rfl

/-- The document that was written is the one that is loaded. -/
theorem loadManifest_written {m : Document} {raw : Bytes} (hraw : canonicalJson digits m.toJson = .ok raw) :
    loadManifest digits raw = .ok m.toJson.sortKeys ∧
      canonicalJson digits m.toJson.sortKeys = .ok raw := by
  obtain ⟨hdigits, hdumps⟩ := canonicalJson_ok hraw
  obtain ⟨hvalue, hstorable, -⟩ := sound_of_dumps (lists_manifest m).plain hdigits hdumps
  have hfew : fewDigits digits m.toJson.sortKeys = true := (fewDigits_sortKeys _).trans hdigits
  constructor
  · rw [loadManifest, loads_dumps_value hvalue hstorable hdumps]
    dsimp only
    rw [hfew, if_neg nofun]
  · have hsame : dumps m.toJson.sortKeys = some raw := by
      rw [dumps, sortKeys_idem _ hvalue]
      exact hdumps
    rw [canonicalJson, hfew, if_neg nofun, hsame]

/-- **The canonical document of a well-formed manifest is accepted**, and read as
    that manifest. -/
theorem validated_of_wellFormed {m : Document} (hm : WellFormed u b m) {raw : Bytes}
    (hraw : canonicalJson digits m.toJson = .ok raw) (hlength : raw.length ≤ b.maxMetadataBytes) :
    validatedManifest u b digits raw = .ok (m.toJson.sortKeys, m) := by
  obtain ⟨hload, hencoded⟩ := loadManifest_written hraw
  have hkeys : hasKeys [(ascii "schema", .str SCHEMA), (ascii "evidence_refs", refsJson m.evidenceRefs),
      (ascii "entries", .arr (m.entries.map Entry.toJson))] ["schema", "evidence_refs", "entries"]
      = true := rfl
  have hrefs : (refsJson m.evidenceRefs).sortKeys = .arr (m.evidenceRefs.map Json.str) := by
    show Json.arr (sortItems _) = _
    rw [sortItems_eq_map, List.map_map]
    rfl
  have hitems : (Json.arr (m.entries.map Entry.toJson)).sortKeys
      = .arr (m.entries.map fun e => e.toJson.sortKeys) := by
    show Json.arr (sortItems _) = _
    rw [sortItems_eq_map, List.map_map]
    rfl
  have hclosed : (names m.entries).all
      (fun name => (parents name).all (directoryNames m.entries).contains) = true := by
    rw [List.all_eq_true]
    intro name hname
    obtain ⟨e, he, rfl⟩ := List.mem_map.mp hname
    rw [List.all_eq_true]
    intro p hp
    exact List.contains_iff_mem.mpr (mem_directoryNames.mpr (hm.closed e he p hp))
  have hsorted : sortEntries m.entries = m.entries := by
    rw [sortEntries_eq]
    refine List.Pairwise.insertionSort_eq (hm.sorted.imp fun {e f} hlt => ?_)
    show keyLt f.path e.path = false
    by_contra h
    have hback : keyLt f.path e.path = true := by simpa using h
    have hself := keyLt_trans hlt hback
    rw [keyLt_irrefl] at hself
    exact absurd hself nofun
  have hfits : 0 + logicalBytes m.entries ≤ b.maxLogicalBytes := (Nat.zero_add _).symm ▸ hm.logical
  have hentries := readEntries_toJson hm.sound hm.relative hfits
  unfold validatedManifest
  rw [require_of hlength, ok_bind, hload, ok_bind, Document.toJson,
    object_sortKeys "invalid_manifest" hkeys, ok_bind, field_sorted hkeys rfl,
    field_sorted hkeys rfl, field_sorted hkeys rfl, hrefs, hitems]
  show (readRefs _ >>= _) = _
  rw [readRefs_refsJson, ok_bind]
  show (require (SCHEMA = SCHEMA) _ >>= fun _ => (canonicalJson digits m.toJson.sortKeys >>= _)) = _
  rw [require_of rfl, ok_bind, hencoded, ok_bind, require_of rfl, ok_bind, List.length_map,
    require_of hm.count, ok_bind, hentries, ok_bind]
  show (require ((names m.entries).all (fun name => (parents name).all
    (directoryNames m.entries).contains) = true) _ >>= fun _ =>
      (refuse (checkCollisions u (names m.entries) (directoryNames m.entries)) >>= _)) = _
  rw [require_of hclosed, ok_bind, checkCollisions_none.mpr hm.apart, refuse_none, ok_bind,
    require_of hsorted, ok_bind]

/-- **Producer and validator agree**, for every tree and every budget: a manifest
    that the scan returns is accepted and read back as itself, and whatever is
    accepted is well formed under the budget. -/
theorem manifest_agreement (hu : FoldsByCharacter u) :
    (∀ files sources refs m, scan u b digits files sources refs = .ok m →
      ∃ raw, canonicalJson digits m.toJson = .ok raw ∧
        validatedManifest u b digits raw = .ok (m.toJson.sortKeys, m)) ∧
    ∀ raw v m, validatedManifest u b digits raw = .ok (v, m) →
      WellFormed u b m ∧ raw.length ≤ b.maxMetadataBytes := by
  constructor
  · intro files sources refs m hscan
    obtain ⟨raw, hadmitted⟩ := admitted_scan hscan
    have hraw : canonicalJson digits m.toJson = .ok raw := by
      rw [canonicalJson, hadmitted.digits, if_neg nofun, hadmitted.encoded]
    exact ⟨raw, hraw, validated_of_wellFormed (wellFormed_scan hu hscan) hraw hadmitted.length⟩
  · intro raw v m hvalid
    exact wellFormed_validated hvalid

/-- The tables on ASCII texts. -/
def asciiUnicode : Unicode where
  nfc := id
  casefold := List.map fun c => if 65 ≤ c ∧ c ≤ 90 then c + 32 else c
  lower c := if 65 ≤ c ∧ c ≤ 90 then c + 32 else c

theorem foldsByCharacter_ascii : FoldsByCharacter asciiUnicode where
  append _ _ := List.map_append
  slash := rfl

def smallBudget : Budget := { maxFiles := 4, maxMetadataBytes := 1000, maxLogicalBytes := 10 }

/-- A directory that is named with a parent. -/
theorem manifest_agreement_nested : ∃ m,
    scan asciiUnicode smallBudget 4300 (fun _ => .ok (.directory ⟨1, 2, 0, 5⟩ []))
      [⟨[47, 115], [68, 47, 101]⟩] [] = .ok m ∧
    ∃ raw, canonicalJson 4300 m.toJson = .ok raw ∧
      validatedManifest asciiUnicode smallBudget 4300 raw = .ok (m.toJson.sortKeys, m) := by
  have hsome : (scan asciiUnicode smallBudget 4300 (fun _ => .ok (.directory ⟨1, 2, 0, 5⟩ []))
      [⟨[47, 115], [68, 47, 101]⟩] []).toOption.isSome = true := by decide +kernel
  cases hscan : scan asciiUnicode smallBudget 4300 (fun _ => .ok (.directory ⟨1, 2, 0, 5⟩ []))
      [⟨[47, 115], [68, 47, 101]⟩] [] with
  | error code =>
      rw [hscan] at hsome
      exact absurd hsome nofun
  | ok m => exact ⟨m, rfl, (manifest_agreement foldsByCharacter_ascii).1 _ _ _ m hscan⟩

end ManifestAgreement

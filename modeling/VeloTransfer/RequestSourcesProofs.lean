import VeloTransfer.ManifestAgreementProofs

/-! # The sources of a request — two comparisons of names

    A request declares a relative path for each of its sources.  Its validation compares
    the declared paths; the scan of the sources compares the paths of the manifest, in
    which the directories above the declared ones stand too.

    * `declared_apart` — no declared path is another one, or above another one;
    * `gathered_names` — the names that the scan gathers from files;
    * `collides_iff` — they collide exactly where two directories differ in case only. -/

namespace RequestSources

open CanonicalJson ExceptRules Manifest ManifestAgreement
open GuestTerminal (Direction checkText firstError failsWith)

/-! ## The validation of a request -/

/-- `_posix`. -/
def posix (u : Unicode) (value : Text) (code : String) : Except String Unit := do
  require (checkText value 32767 = none) code
  require (value.head? = some 47 ∧ (value.drop 1).head? ≠ some 47 ∧ value ≠ [47] ∧ value.getLast? ≠ some 47) code
  require (((value.drop 1).splitOn 47).all (fun part => (checkRelative u part).isNone) = true) code

/-- `_windows`. -/
def windows (u : Unicode) (value : Text) (code : String) : Except String Unit := do
  require (checkText value 32767 = none) code
  require (hasDrive value = true ∧ (value.drop 2).head? = some 92 ∧ value.getLast? ≠ some 92 ∧
    value.contains 47 = false) code
  require (((value.drop 3).splitOn 92).all (fun part => (checkRelative u part).isNone) = true) code

/-- The folded paths so far, and the directories above them. -/
structure Declared where
  names : List Text
  parents : List Text
deriving Repr

/-- One source of `_validate_document`. -/
def Declared.source (u : Unicode) (direction : Direction) (d : Declared) (source : Source) : Except String Declared := do
  (match direction with
    | .push => posix
    | .pull => windows) u source.absolutePath "invalid_source_path"
  refuse (checkRelative u source.relativePath)
  let folded := u.casefold source.relativePath
  let prefixes := Manifest.parents folded
  require (folded ∉ d.names ∧ folded ∉ d.parents ∧ ∀ p ∈ prefixes, p ∉ d.names) "path_collision"
  .ok { names := d.names ++ [folded], parents := d.parents ++ prefixes }

/-- The sources of `_validate_document`. -/
def validateSources (u : Unicode) (direction : Direction) (maxFiles : Nat) (sources : List Source) :
    Except String Declared := do
  require (sources ≠ []) "sources_required"
  require (sources.length ≤ maxFiles) "file_count_exceeded"
  sources.foldlM (Declared.source u direction) ⟨[], []⟩

/-! ## The scan, on either side -/

section Scan

variable (absolute : Text → Bool) (u : Unicode) (b : Budget) (digits : Nat) (files : Text → Except String Node)

/-- The loop over the sources; `absolute` is `Path.is_absolute` of the side that scans. -/
def addSourcesOf : List Source → Inventory → Except String Inventory
  | [], s => .ok s
  | source :: rest, s => do
      refuse (checkRelative u source.relativePath)
      require (absolute source.absolutePath = true) "invalid_source_path"
      let node ← files source.absolutePath
      let s ← add u b digits source.relativePath node s
      addSourcesOf rest s

/-- `_scan`, before it checks the names. -/
def gather (sources : List Source) (refs : List Text) : Except String Inventory := do
  require (sources ≠ []) "sources_required"
  require (sources.length ≤ b.maxFiles) "file_count_exceeded"
  chargeRefs b refs 32
  let head ← canonicalJson digits (.obj [(ascii "schema", .str SCHEMA), (ascii "evidence_refs", refsJson refs)])
  let s ← addSourcesOf absolute u b digits files sources { entries := [], logical := 0, metadata := head.length }
  addParents b digits (s.names.flatMap parents) s

/-- `_scan`. -/
def scanOf (sources : List Source) (refs : List Text) : Except String Document := do
  let s ← gather absolute u b digits files sources refs
  refuse (checkCollisions u s.names ((s.entries.filter (fun e => e.kind.isDirectory)).map Entry.path))
  let raw ← canonicalJson digits (Document.toJson { evidenceRefs := refs, entries := sortEntries s.entries })
  require (raw.length ≤ b.maxMetadataBytes) "metadata_budget_exceeded"
  .ok { evidenceRefs := refs, entries := sortEntries s.entries }

end Scan

/-- On the host this is the scan of a manifest. -/
theorem scanOf_posix (u : Unicode) (b : Budget) (digits : Nat) (files : Text → Except String Node)
    (sources : List Source) (refs : List Text) :
    scanOf (fun path => path.head? = some 47) u b digits files sources refs = scan u b digits files sources refs := by
  have hadd : ∀ s, addSourcesOf (fun path => path.head? = some 47) u b digits files sources s =
      addSources u b digits files sources s := by
    induction sources with
    | nil => intro s; rfl
    | cons source rest ih =>
        intro s
        rw [addSourcesOf, addSources]
        simp only [decide_eq_true_eq, ih]
  unfold scanOf gather scan
  simp only [hadd, bind_assoc]

/-! ## What the validation says of the names -/

section Declaring

variable {u : Unicode} {direction : Direction} {maxFiles : Nat} {d d' : Declared} {source : Source}
  {sources : List Source}

/-- The declared paths, as they are compared. -/
def foldedPaths (u : Unicode) (sources : List Source) : List Text :=
  sources.map fun source => u.casefold source.relativePath

/-- No folded path is another one, or above another one. -/
structure Declared.Sound (u : Unicode) (d : Declared) (sources : List Source) : Prop where
  names : d.names = foldedPaths u sources
  parents : d.parents = (foldedPaths u sources).flatMap Manifest.parents
  relative : ∀ source ∈ sources, checkRelative u source.relativePath = none
  distinct : d.names.Nodup
  above : ∀ name ∈ d.names, name ∉ d.parents

/-- A path is not above itself. -/
theorem not_mem_parents (path : Text) : path ∉ Manifest.parents path := by
  intro h
  obtain ⟨rest, hrest⟩ := mem_parents.mp h
  have hlength := congrArg List.length hrest
  rw [List.length_append, List.length_cons] at hlength
  omega

theorem Declared.Sound.step (h : d.Sound u sources) (hd : d.source u direction source = .ok d') :
    d'.Sound u (sources ++ [source]) := by
  obtain ⟨_, -, hd⟩ := bind_ok hd
  obtain ⟨_, hrelative, hd⟩ := bind_ok hd
  obtain ⟨_, hapart, hd⟩ := bind_ok hd
  obtain rfl := Except.ok.inj hd
  obtain ⟨hname, hparent, hprefixes⟩ := require_ok hapart
  have hfolded : foldedPaths u (sources ++ [source]) = foldedPaths u sources ++ [u.casefold source.relativePath] :=
    List.map_append
  refine ⟨?_, ?_, ?_, ?_, ?_⟩
  · rw [hfolded, h.names]
  · rw [hfolded, List.flatMap_append, h.parents, List.flatMap_singleton]
  · intro s hs
    rcases List.mem_append.mp hs with hs | hs
    · exact h.relative s hs
    · exact List.mem_singleton.mp hs ▸ refuse_ok hrelative
  · refine List.nodup_append.mpr ⟨h.distinct, List.nodup_singleton _, fun a ha b hb => ?_⟩
    rintro rfl
    exact hname (List.mem_singleton.mp hb ▸ ha)
  · intro name hmem hup
    rcases List.mem_append.mp hmem with hmem | hmem <;> rcases List.mem_append.mp hup with hup | hup
    · exact h.above name hmem hup
    · exact hprefixes name hup hmem
    · exact hparent (List.mem_singleton.mp hmem ▸ hup)
    · obtain rfl := List.mem_singleton.mp hmem
      exact not_mem_parents _ hup

theorem Declared.Sound.run {rest : List Source} (h : d.Sound u sources)
    (hd : rest.foldlM (Declared.source u direction) d = .ok d') : d'.Sound u (sources ++ rest) := by
  induction rest generalizing sources d with
  | nil =>
      obtain rfl := Except.ok.inj hd
      exact (List.append_nil sources).symm ▸ h
  | cons source rest ih =>
      rw [List.foldlM_cons] at hd
      obtain ⟨d₁, hfirst, hd⟩ := bind_ok hd
      have hrest := ih (h.step hfirst) hd
      rwa [List.append_assoc] at hrest

/-- What a request that is accepted says of its paths. -/
structure Accepted (u : Unicode) (sources : List Source) : Prop where
  relative : ∀ source ∈ sources, checkRelative u source.relativePath = none
  distinct : (foldedPaths u sources).Nodup
  above : ∀ name ∈ foldedPaths u sources, ∀ other ∈ foldedPaths u sources, name ∉ Manifest.parents other

/-- **No declared path** of an accepted request is another one, or above another one. -/
theorem declared_apart (h : validateSources u direction maxFiles sources = .ok d) : Accepted u sources := by
  obtain ⟨_, -, h⟩ := bind_ok h
  obtain ⟨_, -, h⟩ := bind_ok h
  have hempty : Declared.Sound u ⟨[], []⟩ [] := ⟨rfl, rfl, nofun, .nil, nofun⟩
  have hsound := hempty.run h
  rw [List.nil_append] at hsound
  refine ⟨hsound.relative, hsound.names ▸ hsound.distinct, fun name hname other hother hup => ?_⟩
  refine hsound.above name (hsound.names ▸ hname) ?_
  rw [hsound.parents]
  exact List.mem_flatMap.mpr ⟨other, hother, hup⟩

end Declaring

/-! ## What the scan gathers -/

section Gathering

variable {absolute : Text → Bool} {u : Unicode} {b : Budget} {digits : Nat} {files : Text → Except String Node}
  {sources : List Source} {refs : List Text} {s s' : Inventory}

/-- All sources are regular files. -/
def Regular (files : Text → Except String Node) (sources : List Source) : Prop :=
  ∀ source ∈ sources, ∃ content identity, files source.absolutePath = .ok (.file content identity)

/-- The entries of files, at the declared paths. -/
theorem addSourcesOf_files (hfiles : Regular files sources)
    (h : addSourcesOf absolute u b digits files sources s = .ok s') :
    ∃ es, s'.entries = s.entries ++ es ∧ es.map Entry.path = sources.map Source.relativePath ∧
      ∀ e ∈ es, e.kind.isDirectory = false := by
  induction sources generalizing s with
  | nil =>
      obtain rfl := Except.ok.inj h
      exact ⟨[], (List.append_nil _).symm, rfl, nofun⟩
  | cons source rest ih =>
      obtain ⟨content, identity, hfile⟩ := hfiles source List.mem_cons_self
      obtain ⟨_, -, h⟩ := bind_ok h
      obtain ⟨_, -, h⟩ := bind_ok h
      obtain ⟨node, hnode, h⟩ := bind_ok h
      obtain ⟨t, hadd, h⟩ := bind_ok h
      obtain rfl := Except.ok.inj (hfile.symm.trans hnode)
      rw [Manifest.add] at hadd
      obtain ⟨_, -, hadd⟩ := bind_ok hadd
      obtain ⟨_, -, hadd⟩ := bind_ok hadd
      obtain ⟨_, -, hadd⟩ := bind_ok hadd
      obtain ⟨t', hcharge, hadd⟩ := bind_ok hadd
      obtain rfl := Except.ok.inj hadd
      obtain ⟨hentries, -⟩ := charge_ok hcharge
      obtain ⟨es, hes, hpaths, hfile⟩ := ih (fun s hs => hfiles s (List.mem_cons_of_mem _ hs)) h
      refine ⟨{ path := source.relativePath, kind := .file identity.size (Sha256.hexdigest content) identity } :: es,
        ?_, ?_, List.forall_mem_cons.mpr ⟨rfl, hfile⟩⟩
      · rw [hes]
        show t'.entries ++ es = _
        rw [hentries, List.append_assoc]
        rfl
      · rw [List.map_cons, List.map_cons, hpaths]

/-- The virtual directories: the parents that are not there, each once. -/
theorem addParents_virtual {ps : List Text} (h : addParents b digits ps s = .ok s') :
    ∃ vs, s'.entries = s.entries ++ vs ∧ (∀ e ∈ vs, e.kind.isDirectory = true) ∧ (vs.map Entry.path).Nodup ∧
      ∀ p, p ∈ vs.map Entry.path ↔ p ∈ ps ∧ p ∉ s.names := by
  induction ps generalizing s with
  | nil =>
      obtain rfl := Except.ok.inj h
      exact ⟨[], (List.append_nil _).symm, nofun, .nil, fun p =>
        ⟨fun hp => absurd hp List.not_mem_nil, fun hp => absurd hp.1 List.not_mem_nil⟩⟩
  | cons q ps ih =>
      obtain ⟨t, hfirst, h⟩ := bind_ok h
      unfold addParent at hfirst
      by_cases hin : s.names.contains q = true
      · rw [if_pos hin] at hfirst
        obtain rfl := Except.ok.inj hfirst
        obtain ⟨vs, hentries, hdirectory, hnodup, hmem⟩ := ih h
        refine ⟨vs, hentries, hdirectory, hnodup, fun p => ?_⟩
        rw [hmem, List.mem_cons]
        refine ⟨fun ⟨hp, hnot⟩ => ⟨.inr hp, hnot⟩, fun ⟨hp, hnot⟩ => ⟨?_, hnot⟩⟩
        rcases hp with rfl | hp
        · exact absurd (List.contains_iff_mem.mp hin) hnot
        · exact hp
      · rw [if_neg hin] at hfirst
        obtain ⟨_, -, hcharge⟩ := bind_ok hfirst
        obtain ⟨hentries, -⟩ := charge_ok hcharge
        have hnames : t.names = s.names ++ [q] := by
          rw [Inventory.names, hentries, List.map_append]
          rfl
        obtain ⟨vs, hvs, hdirectory, hnodup, hmem⟩ := ih h
        rw [hnames] at hmem
        have hq : q ∉ s.names := fun hq => hin (List.contains_iff_mem.mpr hq)
        refine ⟨{ path := q, kind := .directory none } :: vs, ?_, List.forall_mem_cons.mpr ⟨rfl, hdirectory⟩, ?_, fun p => ?_⟩
        · rw [hvs, hentries, List.append_assoc]
          rfl
        · refine List.nodup_cons.mpr ⟨fun hmem' => ?_, hnodup⟩
          exact ((hmem q).mp hmem').2 (List.mem_append_right _ (List.mem_singleton_self q))
        · rw [List.map_cons, List.mem_cons, hmem, List.mem_cons, List.mem_append, List.mem_singleton]
          constructor
          · rintro (rfl | ⟨hp, hnot⟩)
            · exact ⟨.inl rfl, hq⟩
            · exact ⟨.inr hp, fun hs => hnot (.inl hs)⟩
          · rintro ⟨hp, hnot⟩
            by_cases heq : p = q
            · exact .inl heq
            · exact .inr ⟨hp.resolve_left heq, fun hor => hor.elim hnot heq⟩

/-- The directories above the declared paths. -/
def prefixes (sources : List Source) : List Text := (sources.map Source.relativePath).flatMap Manifest.parents

/-- What the scan has gathered from files: an entry for each, and one for each directory
    above them. -/
structure Gathering (sources : List Source) (s : Inventory) (es vs : List Entry) : Prop where
  entries : s.entries = es ++ vs
  declared : es.map Entry.path = sources.map Source.relativePath
  files : ∀ e ∈ es, e.kind.isDirectory = false
  virtual : ∀ e ∈ vs, e.kind.isDirectory = true
  distinct : (vs.map Entry.path).Nodup
  above : ∀ p, p ∈ vs.map Entry.path ↔ p ∈ prefixes sources ∧ p ∉ sources.map Source.relativePath

/-- **The entries of the scan** of regular files. -/
theorem gathered_names (hfiles : Regular files sources) (h : gather absolute u b digits files sources refs = .ok s) :
    ∃ es vs, Gathering sources s es vs := by
  obtain ⟨_, -, h⟩ := bind_ok h
  obtain ⟨_, -, h⟩ := bind_ok h
  obtain ⟨_, -, h⟩ := bind_ok h
  obtain ⟨head, -, h⟩ := bind_ok h
  obtain ⟨t, hadd, h⟩ := bind_ok h
  obtain ⟨es, hes, hpaths, hfile⟩ := addSourcesOf_files hfiles hadd
  obtain ⟨vs, hvs, hdirectory, hnodup, hmem⟩ := addParents_virtual h
  rw [List.nil_append] at hes
  have hnames : t.names = sources.map Source.relativePath := by rw [Inventory.names, hes, hpaths]
  rw [hnames] at hmem
  exact ⟨es, vs, hes ▸ hvs, hpaths, hfile, hdirectory, hnodup, hmem⟩

end Gathering

/-! ## Parents of a relative path -/

section Parents

variable {u : Unicode} {name p : Text}

theorem splitSlash_ne_nil (s : Text) : splitSlash s ≠ [] := by
  cases s with
  | nil => exact List.cons_ne_nil _ _
  | cons c cs =>
      rw [splitSlash]
      split
      · exact List.cons_ne_nil _ _
      · split <;> exact List.cons_ne_nil _ _

/-- The parts before a slash are those of what stands before it. -/
theorem splitSlash_append (s rest : Text) : splitSlash (s ++ 47 :: rest) = splitSlash s ++ splitSlash rest := by
  induction s with
  | nil =>
      show (if 47 = 47 then [] :: splitSlash rest else _) = _
      exact if_pos rfl
  | cons c cs ih =>
      rw [List.cons_append, splitSlash, splitSlash, ih]
      split
      · rfl
      · cases hparts : splitSlash cs with
        | nil => exact absurd hparts (splitSlash_ne_nil cs)
        | cons part parts => rfl

/-- A directory above a relative path is at a relative path. -/
theorem relative_of_parent (h : checkRelative u name = none) (hp : p ∈ Manifest.parents name) :
    checkRelative u p = none := by
  obtain ⟨rest, rfl⟩ := mem_parents.mp hp
  unfold checkRelative at h ⊢
  simp only [GuestTerminal.firstError_cons, GuestTerminal.failsWith_none, not_or] at h ⊢
  obtain ⟨⟨-, hnull, hslash⟩, ⟨hroot, hdrive⟩, hparts, -⟩ := h
  rw [splitSlash_append, List.any_append, Bool.or_eq_true, not_or] at hparts
  refine ⟨⟨?_, ?_, ?_⟩, ⟨?_, ?_⟩, hparts.1, rfl⟩
  · rintro rfl
    exact hroot rfl
  · exact fun h => hnull (List.contains_iff_mem.mpr (List.mem_append_left _ (List.contains_iff_mem.mp h)))
  · exact fun h => hslash (List.contains_iff_mem.mpr (List.mem_append_left _ (List.contains_iff_mem.mp h)))
  · intro h
    cases p with
    | nil => exact absurd h nofun
    | cons c cs => exact hroot h
  · intro h
    match p, h with
    | c :: d :: cs, h => exact hdrive h

end Parents

/-! ## The collisions -/

section Collisions

variable {u : Unicode} {entries es vs : List Entry} {sources : List Source} {s : Inventory}

/-- No two entries are equal as `_check_collisions` compares them, and no file is above
    another entry. -/
structure Separate (u : Unicode) (entries : List Entry) : Prop where
  distinct : (entries.map fun e => u.casefold e.path).Nodup
  above : ∀ e ∈ entries, ∀ f ∈ entries, f.kind.isDirectory = false →
    u.casefold f.path ∉ Manifest.parents (u.casefold e.path)

/-- Directories above the declared paths that differ do not differ in case only. -/
def SpelledAlike (u : Unicode) (sources : List Source) : Prop :=
  ∀ p ∈ prefixes sources, ∀ q ∈ prefixes sources, u.casefold p = u.casefold q → p = q

theorem mem_foldedPaths {name : Text} :
    name ∈ foldedPaths u sources ↔ ∃ path ∈ sources.map Source.relativePath, u.casefold path = name := by
  simp only [foldedPaths, List.mem_map, exists_exists_and_eq_and]

/-- The folded form of a directory above a declared path is above its folded form. -/
theorem folded_above (hu : FoldsByCharacter u) {p : Text} (hp : p ∈ prefixes sources) :
    ∃ name ∈ foldedPaths u sources, u.casefold p ∈ Manifest.parents name := by
  obtain ⟨path, hpath, hup⟩ := List.mem_flatMap.mp hp
  exact ⟨_, mem_foldedPaths.mpr ⟨path, hpath, rfl⟩, hu.parents hup⟩

/-- No declared path of an accepted request is a directory above one. -/
theorem Accepted.not_prefix (h : Accepted u sources) (hu : FoldsByCharacter u) {p : Text} (hp : p ∈ prefixes sources) :
    u.casefold p ∉ foldedPaths u sources := by
  obtain ⟨name, hname, hup⟩ := folded_above hu hp
  exact fun hmem => h.above _ hmem name hname hup

theorem Gathering.virtual_iff (h : Gathering sources s es vs) (haccepted : Accepted u sources) (hu : FoldsByCharacter u)
    (p : Text) : p ∈ vs.map Entry.path ↔ p ∈ prefixes sources := by
  rw [h.above]
  refine ⟨fun hp => hp.1, fun hp => ⟨hp, fun hmem => ?_⟩⟩
  exact haccepted.not_prefix hu hp (mem_foldedPaths.mpr ⟨p, hmem, rfl⟩)

/-- The folded path of an entry of a file is a declared one. -/
theorem Gathering.file_path (h : Gathering sources s es vs) {e : Entry} (he : e ∈ es) :
    u.casefold e.path ∈ foldedPaths u sources :=
  mem_foldedPaths.mpr ⟨e.path, h.declared ▸ List.mem_map_of_mem he, rfl⟩

/-- **The entries of an accepted request collide** exactly where two directories differ in
    case only. -/
theorem separate_iff (hu : FoldsByCharacter u) (haccepted : Accepted u sources) (h : Gathering sources s es vs) :
    Separate u s.entries ↔ SpelledAlike u sources := by
  constructor
  · intro hseparate p hp q hq hfold
    obtain ⟨e, he, rfl⟩ := List.mem_map.mp ((h.virtual_iff haccepted hu p).mpr hp)
    obtain ⟨f, hf, rfl⟩ := List.mem_map.mp ((h.virtual_iff haccepted hu q).mpr hq)
    have hdistinct := hseparate.distinct
    rw [h.entries] at hdistinct
    exact congrArg Entry.path
      (List.inj_on_of_nodup_map hdistinct (List.mem_append_right _ he) (List.mem_append_right _ hf) hfold)
  · intro halike
    have hfiles : es.map (fun e => u.casefold e.path) = foldedPaths u sources := by
      have hpaths := congrArg (List.map u.casefold) h.declared
      rw [List.map_map, List.map_map] at hpaths
      exact hpaths
    have hvirtual : ∀ e ∈ vs, e.path ∈ prefixes sources := fun e he =>
      (h.virtual_iff haccepted hu e.path).mp (List.mem_map_of_mem he)
    constructor
    · rw [h.entries, List.map_append, hfiles]
      refine List.nodup_append.mpr ⟨haccepted.distinct, ?_, ?_⟩
      · have hinj : ∀ p ∈ vs.map Entry.path, ∀ q ∈ vs.map Entry.path, u.casefold p = u.casefold q → p = q :=
          fun p hp q hq => halike p ((h.virtual_iff haccepted hu p).mp hp) q ((h.virtual_iff haccepted hu q).mp hq)
        have hnodup := List.Nodup.map_on hinj h.distinct
        rwa [List.map_map] at hnodup
      · rintro name hname _ hmem rfl
        obtain ⟨e, he, hpath⟩ := List.mem_map.mp hmem
        exact haccepted.not_prefix hu (hvirtual e he) (hpath ▸ hname)
    · intro e he f hf hfile hup
      rw [h.entries] at he hf
      have hf : f ∈ es := (List.mem_append.mp hf).resolve_right fun hf =>
        absurd ((h.virtual f hf).symm.trans hfile) nofun
      rcases List.mem_append.mp he with he | he
      · exact haccepted.above _ (h.file_path hf) _ (h.file_path he) hup
      · obtain ⟨name, hname, habove⟩ := folded_above hu (hvirtual e he)
        exact haccepted.above _ (h.file_path hf) name hname (parents_trans hup habove)

/-- Its check of the names says so. -/
theorem checkCollisions_iff (hrelative : ∀ e ∈ entries, checkRelative u e.path = none) :
    checkCollisions u (names entries) (directoryNames entries) = none ↔ Separate u entries := by
  rw [checkCollisions_none]
  constructor
  · intro hapart
    have hdistinct := hapart.distinct
    refine ⟨?_, fun e he f hf hfile hup => ?_⟩
    · rwa [names, List.map_map] at hdistinct
    · have hin := hapart.above e.path (List.mem_map_of_mem he) _ hup (List.mem_map_of_mem (List.mem_map_of_mem hf))
      obtain ⟨q, hq, hfold⟩ := List.mem_map.mp hin
      obtain ⟨d, hd, rfl, hdirectory⟩ := mem_directoryNames.mp hq
      obtain rfl := entry_unique hdistinct hd hf hfold
      cases hdirectory.symm.trans hfile
  · intro hseparate
    refine ⟨?_, ?_, ?_⟩
    · intro name hname
      obtain ⟨e, he, rfl⟩ := List.mem_map.mp hname
      exact hrelative e he
    · rw [names, List.map_map]
      exact hseparate.distinct
    · intro name hname p hp hmem
      obtain ⟨e, he, rfl⟩ := List.mem_map.mp hname
      obtain ⟨path, hpath, rfl⟩ := List.mem_map.mp hmem
      obtain ⟨f, hf, rfl⟩ := List.mem_map.mp hpath
      refine List.mem_map_of_mem (mem_directoryNames.mpr ⟨f, hf, rfl, ?_⟩)
      by_contra hfile
      exact hseparate.above e he f hf (Bool.eq_false_iff.mpr hfile) hp

/-- Relative names are refused for a collision only. -/
theorem checkCollisions_cases {directories paths : List Text} (hrelative : ∀ name ∈ paths, checkRelative u name = none) :
    checkCollisions u paths directories = none ∨ checkCollisions u paths directories = some "path_collision" := by
  unfold checkCollisions
  dsimp only
  rw [firstOf_none.mpr hrelative]
  simp only [firstError, failsWith]
  split
  · exact .inr rfl
  · split
    · exact .inr rfl
    · exact .inl rfl

/-- All paths that are gathered are relative. -/
theorem Gathering.relative (h : Gathering sources s es vs) (haccepted : Accepted u sources) :
    ∀ e ∈ s.entries, checkRelative u e.path = none := by
  have hdeclared : ∀ path ∈ sources.map Source.relativePath, checkRelative u path = none := by
    intro path hpath
    obtain ⟨source, hsource, rfl⟩ := List.mem_map.mp hpath
    exact haccepted.relative source hsource
  intro e he
  rw [h.entries] at he
  rcases List.mem_append.mp he with he | he
  · exact hdeclared e.path (h.declared ▸ List.mem_map_of_mem he)
  · obtain ⟨hdirectory, -⟩ := (h.above e.path).mp (List.mem_map_of_mem he)
    obtain ⟨path, hpath, hup⟩ := List.mem_flatMap.mp hdirectory
    exact relative_of_parent (hdeclared path hpath) hup

end Collisions

/-! ## Where a collision comes from -/

section Calm

variable {α β : Type} {absolute : Text → Bool} {u : Unicode} {b : Budget} {digits : Nat}
  {files : Text → Except String Node} {sources : List Source} {refs : List Text} {s : Inventory}

/-- The step does not fail for a collision. -/
def Calm (x : Except String α) : Prop := x ≠ .error "path_collision"

theorem Calm.bind {x : Except String α} {f : α → Except String β} (hx : Calm x) (hf : ∀ a, x = .ok a → Calm (f a)) :
    Calm (x >>= f) := by
  cases x with
  | error code => exact fun h => hx (congrArg Except.error (Except.error.inj h))
  | ok a => exact hf a rfl

theorem Calm.ok (a : α) : Calm (Except.ok a) := nofun

theorem calm_require {c : Prop} [Decidable c] {code : String} (hcode : code ≠ "path_collision") :
    Calm (require c code) := by
  unfold require
  split
  · exact nofun
  · exact fun h => hcode (Except.error.inj h)

theorem calm_relative (u : Unicode) (value : Text) : Calm (refuse (checkRelative u value)) := by
  unfold checkRelative failsWith
  split <;> split <;> split <;> simp [Calm, firstError, refuse]

theorem calm_json (digits : Nat) (v : Json) : Calm (canonicalJson digits v) := by
  unfold canonicalJson
  split
  · simp [Calm]
  · split <;> simp [Calm]

theorem calm_length (text : Text) : Calm (encodedLength text) := by
  unfold encodedLength
  split <;> simp [Calm]

theorem calm_charge (s : Inventory) (e : Entry) : Calm (s.charge b digits e) :=
  (calm_json digits _).bind fun _ _ => (calm_length _).bind fun _ _ =>
    (calm_require (by decide)).bind fun _ _ => Calm.ok _

theorem calm_file (relative : Text) (content : JsonLine.Bytes) (identity : FileIdentity) (s : Inventory) :
    Calm (add u b digits relative (.file content identity) s) := by
  rw [Manifest.add]
  have henter : Calm (s.enter u b relative) := (calm_require (by decide)).bind fun _ _ => calm_relative u relative
  exact henter.bind fun _ _ => (calm_require (by decide)).bind fun _ _ =>
    (calm_require (by decide)).bind fun _ _ => (calm_charge s _).bind fun _ _ => Calm.ok _

theorem calm_sources (hfiles : Regular files sources) (s : Inventory) :
    Calm (addSourcesOf absolute u b digits files sources s) := by
  induction sources generalizing s with
  | nil => exact Calm.ok s
  | cons source rest ih =>
      obtain ⟨content, identity, hfile⟩ := hfiles source List.mem_cons_self
      refine (calm_relative u _).bind fun _ _ => (calm_require (by decide)).bind fun _ _ => ?_
      rw [hfile]
      refine (Calm.ok _).bind fun node hnode => ?_
      obtain rfl := Except.ok.inj hnode
      exact (calm_file source.relativePath content identity s).bind fun t _ =>
        ih (fun s hs => hfiles s (List.mem_cons_of_mem _ hs)) t

theorem calm_parents (ps : List Text) (s : Inventory) : Calm (addParents b digits ps s) := by
  induction ps generalizing s with
  | nil => exact Calm.ok s
  | cons p ps ih =>
      have hparent : Calm (addParent b digits p s) := by
        unfold addParent
        split
        · exact Calm.ok s
        · exact (calm_require (by decide)).bind fun _ _ => calm_charge s _
      exact hparent.bind fun t _ => ih t

theorem calm_refs (refs : List Text) (size : Nat) : Calm (chargeRefs b refs size) := by
  induction refs generalizing size with
  | nil => exact Calm.ok ()
  | cons ref refs ih => exact (calm_length ref).bind fun _ _ => (calm_require (by decide)).bind fun _ _ => ih _

theorem calm_gather (hfiles : Regular files sources) : Calm (gather absolute u b digits files sources refs) :=
  (calm_require (by decide)).bind fun _ _ => (calm_require (by decide)).bind fun _ _ =>
    (calm_refs refs 32).bind fun _ _ => (calm_json digits _).bind fun _ _ =>
      (calm_sources hfiles _).bind fun _ _ => calm_parents _ _

/-- The scan fails for a collision exactly where its check of the names does. -/
theorem scan_collides (hs : gather absolute u b digits files sources refs = .ok s) :
    scanOf absolute u b digits files sources refs = .error "path_collision" ↔
      checkCollisions u (names s.entries) (directoryNames s.entries) = some "path_collision" := by
  unfold scanOf
  rw [hs, ok_bind]
  show (refuse (checkCollisions u (names s.entries) (directoryNames s.entries)) >>= _) = _ ↔ _
  cases hcheck : checkCollisions u (names s.entries) (directoryNames s.entries) with
  | none =>
      have hcalm : Calm (canonicalJson digits (Document.toJson { evidenceRefs := refs, entries := sortEntries s.entries }) >>=
          fun raw => require (raw.length ≤ b.maxMetadataBytes) "metadata_budget_exceeded" >>= fun _ =>
            .ok ({ evidenceRefs := refs, entries := sortEntries s.entries } : Document)) :=
        (calm_json digits _).bind fun _ _ => (calm_require (by decide)).bind fun _ _ => Calm.ok _
      exact ⟨fun h => absurd h hcalm, nofun⟩
  | some code =>
      exact ⟨fun h => congrArg some (Except.error.inj h), fun h => congrArg Except.error (Option.some.inj h)⟩

end Calm

/-- **An accepted request collides** with itself exactly where two directories above its
    paths differ in case only; a scan that gathers nothing does not fail for a collision. -/
theorem collides_iff {absolute : Text → Bool} {u : Unicode} {b : Budget} {digits maxFiles : Nat}
    {files : Text → Except String Node} {sources : List Source} {refs : List Text} {direction : Direction} {d : Declared}
    (hu : FoldsByCharacter u) (haccepted : validateSources u direction maxFiles sources = .ok d)
    (hfiles : Regular files sources) :
    (∀ s, gather absolute u b digits files sources refs = .ok s →
      (Separate u s.entries ↔ SpelledAlike u sources) ∧
        (scanOf absolute u b digits files sources refs = .error "path_collision" ↔ ¬ SpelledAlike u sources)) ∧
    ∀ code, gather absolute u b digits files sources refs = .error code →
      scanOf absolute u b digits files sources refs = .error code ∧ code ≠ "path_collision" := by
  have hdeclared := declared_apart haccepted
  constructor
  · intro s hs
    obtain ⟨es, vs, hgathering⟩ := gathered_names hfiles hs
    have hseparate := separate_iff hu hdeclared hgathering
    have hrelative := hgathering.relative hdeclared
    have hcheck := checkCollisions_iff hrelative
    have hnames : ∀ name ∈ names s.entries, checkRelative u name = none := fun name hname => by
      obtain ⟨e, he, rfl⟩ := List.mem_map.mp hname
      exact hrelative e he
    refine ⟨hseparate, ?_⟩
    rw [scan_collides hs, ← hseparate, ← hcheck]
    rcases @checkCollisions_cases u (directoryNames s.entries) (names s.entries) hnames with hnone | hsome
    · rw [hnone]
      exact ⟨nofun, fun h => absurd rfl h⟩
    · rw [hsome]
      exact ⟨fun _ => nofun, fun _ => rfl⟩
  · intro code hcode
    refine ⟨?_, fun heq => calm_gather hfiles (heq ▸ hcode)⟩
    unfold scanOf
    rw [hcode]
    rfl

def roomyBudget : Budget := { maxFiles := 4, maxMetadataBytes := 4000, maxLogicalBytes := 10 }

/-- Two files below one directory. -/
theorem collides_iff_siblings :
    let sources : List Source := [⟨ascii "/s/x", ascii "D/x"⟩, ⟨ascii "/s/y", ascii "D/y"⟩]
    let files : Text → Except String Node := fun _ => .ok (.file [] ⟨1, 2, 0, 5⟩)
    ∀ s, gather (fun path => path.head? = some 47) asciiUnicode roomyBudget 4300 files sources [] = .ok s →
      (Separate asciiUnicode s.entries ↔ SpelledAlike asciiUnicode sources) ∧
        (scanOf (fun path => path.head? = some 47) asciiUnicode roomyBudget 4300 files sources [] =
          .error "path_collision" ↔ ¬ SpelledAlike asciiUnicode sources) := by
  intro sources files
  have haccepted : validateSources asciiUnicode .push 4 sources =
      .ok ⟨[ascii "d/x", ascii "d/y"], [ascii "d", ascii "d"]⟩ := by rfl
  exact (collides_iff foldsByCharacter_ascii haccepted fun _ _ => ⟨[], ⟨1, 2, 0, 5⟩, rfl⟩).1

/-- The validation accepts `A/x` beside `a/y`; the scan refuses the directories `A` and `a`. -/
theorem directories_collide :
    let sources : List Source := [⟨ascii "/s/x", ascii "A/x"⟩, ⟨ascii "/s/y", ascii "a/y"⟩]
    let files : Text → Except String Node := fun _ => .ok (.file [] ⟨1, 2, 0, 5⟩)
    validateSources asciiUnicode .push 4 sources = .ok ⟨[ascii "a/x", ascii "a/y"], [ascii "a", ascii "a"]⟩ ∧
      Regular files sources ∧ scan asciiUnicode roomyBudget 4300 files sources [] = .error "path_collision" := by
  intro sources files
  refine ⟨rfl, fun _ _ => ⟨[], ⟨1, 2, 0, 5⟩, rfl⟩, ?_⟩
  have hcode : (match scan asciiUnicode roomyBudget 4300 files sources [] with
    | .error code => code == "path_collision"
    | .ok _ => false) = true := by decide +kernel
  cases hscan : scan asciiUnicode roomyBudget 4300 files sources [] with
  | error code =>
      rw [hscan] at hcode
      exact congrArg Except.error (beq_iff_eq.mp hcode)
  | ok m =>
      rw [hscan] at hcode
      exact absurd hcode nofun

end RequestSources

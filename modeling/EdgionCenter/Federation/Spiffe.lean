import EdgionCenter.Admin.Path
import EdgionCenter.Lib.Fallible

/-! The identity a controller proves by its certificate and the one it asks to register under. -/
namespace EdgionCenter.Spiffe

open Fallible

inductive PeerIdentityError
  | parseError
  | noSpiffeSan
  | multiSan
  | mismatch
  deriving DecidableEq

structure ControllerSpiffe where
  host : String
  cluster : String
  name : String
  deriving DecidableEq

/-- An entry of the subject alternative names. -/
inductive GeneralName
  | uri (text : String)
  | other
  deriving DecidableEq

/-- A certificate as the handshake hands it on: its length in bytes and, unless it cannot be parsed,
its alternative names in order. An extension that cannot be parsed has none. -/
structure Leaf where
  derLen : Nat
  names : Option (List GeneralName)

/-- `str::get(..n)` with the text after it; nothing when byte `n` is within a character or beyond
the end. -/
def splitAtByte : Nat → List Char → Option (List Char × List Char)
  | 0, cs => some ([], cs)
  | _ + 1, [] => none
  | n + 1, c :: cs =>
    if c.utf8Size ≤ n + 1 then
      (splitAtByte (n + 1 - c.utf8Size) cs).map fun parts => (c :: parts.1, parts.2)
    else none

/-- The URI after its scheme. -/
def afterScheme (uri : String) : Option String := do
  let (scheme, rest) ← splitAtByte 9 uri.toList
  if eqIgnoreAsciiCase (String.ofList scheme) "spiffe://" then some (String.ofList rest) else none

def maxLeafDerLen : Nat := 16 * 1024

def maxSanEntries : Nat := 64

def GeneralName.spiffe : GeneralName → Option String
  | .uri text => if (afterScheme text).isSome then some text else none
  | .other => none

def singleUri : List String → Except PeerIdentityError String
  | [] => .error .noSpiffeSan
  | [uri] => .ok uri
  | _ => .error .multiSan

def extractSingleSpiffeUri (leaf : Leaf) : Except PeerIdentityError String := do
  require (leaf.derLen ≤ maxLeafDerLen) .parseError
  match leaf.names with
  | none => .error .parseError
  | some names => do
    require (names.length ≤ maxSanEntries) .parseError
    singleUri (names.filterMap GeneralName.spiffe)

def parseControllerSpiffe (uri : String) : Option ControllerSpiffe := do
  let rest ← afterScheme uri
  let (host, path) ← splitOnce '/' rest
  match segments path with
  | [first, cluster, name] =>
    if first = "controllers" ∧ host ≠ "" ∧ cluster ≠ "" ∧ name ≠ "" then
      some ⟨host, cluster, name⟩
    else none
  | _ => none

def checkMatch (parsed : ControllerSpiffe) (trustDomain reqCluster reqControllerId : String) :
    Except PeerIdentityError Unit := do
  require (eqIgnoreAsciiCase parsed.host trustDomain = true) .mismatch
  require (parsed.cluster = reqCluster) .mismatch
  require (parsed.cluster ++ "/" ++ parsed.name = reqControllerId) .mismatch

/-- Parsing the URI, then the match. -/
def matchUri (uri trustDomain reqCluster reqControllerId : String) :
    Except PeerIdentityError Unit :=
  match parseControllerSpiffe uri with
  | some parsed => checkMatch parsed trustDomain reqCluster reqControllerId
  | none => .error .mismatch

def verify (leaf : Leaf) (trustDomain reqCluster reqControllerId : String) :
    Except PeerIdentityError Unit := do
  let uri ← extractSingleSpiffeUri leaf
  matchUri uri trustDomain reqCluster reqControllerId

/-- The path of a SPIFFE URI. -/
def spiffePath (uri : String) : Option String := do
  let rest ← afterScheme uri
  let (_, path) ← splitOnce '/' rest
  return "/" ++ path

/-- The URI names the controller that asks to register, whatever the case of its scheme and host. -/
def NamesPeer (uri trustDomain cluster controllerId : String) : Prop :=
  ∃ scheme host name,
    uri = scheme ++ host ++ "/controllers/" ++ cluster ++ "/" ++ name ∧
      eqIgnoreAsciiCase scheme "spiffe://" = true ∧ eqIgnoreAsciiCase host trustDomain = true ∧
      (name ≠ "" ∧ '/' ∉ name.toList) ∧ trustDomain ≠ "" ∧
      (cluster ≠ "" ∧ '/' ∉ cluster.toList) ∧ controllerId = cluster ++ "/" ++ name

section Letters

variable {a b : String}

theorem eqIgnoreAsciiCase_iff :
    eqIgnoreAsciiCase a b = true ↔ a.toList.map Char.toLower = b.toList.map Char.toLower := by
  simp [eqIgnoreAsciiCase, asciiLower, String.ofList_inj]

theorem utf8Len_of_eqIgnoreAsciiCase (h : eqIgnoreAsciiCase a b = true) :
    utf8Len a.toList = utf8Len b.toList := by
  rw [eqIgnoreAsciiCase_iff] at h
  rw [← utf8Len_map_toLower, h, utf8Len_map_toLower]

theorem slash_mem_map_toLower (cs : List Char) : '/' ∈ cs.map Char.toLower ↔ '/' ∈ cs := by
  rw [List.mem_map]
  constructor
  · rintro ⟨c, hc, h⟩
    obtain rfl := (toLower_eq_iff (by decide) (by decide)).mp h
    exact hc
  · intro h
    exact ⟨'/', h, by decide⟩

theorem slash_mem_of_eqIgnoreAsciiCase (h : eqIgnoreAsciiCase a b = true) :
    '/' ∈ a.toList ↔ '/' ∈ b.toList := by
  rw [eqIgnoreAsciiCase_iff] at h
  rw [← slash_mem_map_toLower, h, slash_mem_map_toLower]

theorem eq_empty_of_eqIgnoreAsciiCase (h : eqIgnoreAsciiCase a b = true) : a = "" ↔ b = "" := by
  rw [eqIgnoreAsciiCase_iff] at h
  rw [← String.toList_eq_nil_iff, ← String.toList_eq_nil_iff]
  have hl := congrArg List.length h
  rw [List.length_map, List.length_map] at hl
  rw [← List.length_eq_zero_iff, ← List.length_eq_zero_iff, hl]

end Letters

section Parse

variable {uri rest : String}

theorem splitAtByte_eq_some {n : Nat} {cs before after : List Char} :
    splitAtByte n cs = some (before, after) ↔ cs = before ++ after ∧ utf8Len before = n := by
  induction cs generalizing n before with
  | nil => cases n <;> cases before <;> simp [splitAtByte, utf8Len]
  | cons c cs ih =>
    cases before with
    | nil =>
      cases n with
      | zero => simp [splitAtByte, utf8Len, eq_comm]
      | succ n => simp [splitAtByte, utf8Len]
    | cons d before =>
      have hpos := d.utf8Size_pos
      rw [utf8Len_cons]
      cases n with
      | zero =>
        simp [splitAtByte]
        omega
      | succ n =>
        have hcons : ∀ parts : List Char × List Char,
            (c :: parts.1, parts.2) = (d :: before, after) ↔ c = d ∧ parts = (before, after) := by
          rintro ⟨l, r⟩
          simp [and_assoc]
        rw [splitAtByte]
        split
        · simp only [Option.map_eq_some_iff, hcons, List.cons_append, List.cons.injEq]
          constructor
          · rintro ⟨_, hparts, rfl, rfl⟩
            obtain ⟨hcs, hlen⟩ := ih.mp hparts
            exact ⟨⟨rfl, hcs⟩, by omega⟩
          · rintro ⟨⟨rfl, hcs⟩, hlen⟩
            exact ⟨_, ih.mpr ⟨hcs, by omega⟩, rfl, rfl⟩
        · simp only [reduceCtorEq, List.cons_append, List.cons.injEq, false_iff]
          rintro ⟨⟨rfl, _⟩, hlen⟩
          omega

theorem afterScheme_eq_some : afterScheme uri = some rest ↔
    ∃ scheme, eqIgnoreAsciiCase scheme "spiffe://" = true ∧ uri = scheme ++ rest := by
  simp only [afterScheme, Option.bind_eq_bind, Option.bind_eq_some_iff]
  constructor
  · rintro ⟨⟨scheme, tail⟩, hsplit, h⟩
    obtain ⟨huri, -⟩ := splitAtByte_eq_some.mp hsplit
    split at h
    · rename_i hscheme
      obtain rfl := Option.some.inj h
      refine ⟨String.ofList scheme, hscheme, ?_⟩
      rw [← String.ofList_append, ← huri, String.ofList_toList]
    · cases h
  · rintro ⟨scheme, hscheme, rfl⟩
    -- the scheme has nine bytes whatever the case of its letters
    have hlen : utf8Len scheme.toList = 9 := utf8Len_of_eqIgnoreAsciiCase hscheme
    refine ⟨(scheme.toList, rest.toList), ?_, ?_⟩
    · rw [splitAtByte_eq_some]
      exact ⟨String.toList_append, hlen⟩
    · simp [hscheme]

theorem segments_eq_three {path first cluster name : String} :
    segments path = [first, cluster, name] ↔
      path = first ++ "/" ++ cluster ++ "/" ++ name ∧ '/' ∉ first.toList ∧
        '/' ∉ cluster.toList ∧ '/' ∉ name.toList := by
  constructor
  · intro h
    have hmem : ∀ s ∈ [first, cluster, name], '/' ∉ s.toList := by
      intro s hs
      exact not_mem_of_mem_segments (h ▸ hs)
    have hfirst := hmem first (by simp)
    have hcluster := hmem cluster (by simp)
    have hname := hmem name (by simp)
    refine ⟨?_, hfirst, hcluster, hname⟩
    rw [← segments_inj, segments_append_slash, segments_append_slash, h,
      segments_eq_singleton hfirst, segments_eq_singleton hcluster, segments_eq_singleton hname]
    rfl
  · rintro ⟨rfl, hfirst, hcluster, hname⟩
    rw [segments_append_slash, segments_append_slash,
      segments_eq_singleton hfirst, segments_eq_singleton hcluster, segments_eq_singleton hname]
    rfl

variable {p : ControllerSpiffe}

/-- Taken apart, a URI is its scheme, the host, and the path with the cluster and the name. -/
theorem parseControllerSpiffe_eq_some : parseControllerSpiffe uri = some p ↔
      ∃ scheme, eqIgnoreAsciiCase scheme "spiffe://" = true ∧
        uri = scheme ++ p.host ++ "/controllers/" ++ p.cluster ++ "/" ++ p.name ∧
        (p.host ≠ "" ∧ '/' ∉ p.host.toList) ∧ (p.cluster ≠ "" ∧ '/' ∉ p.cluster.toList) ∧
        p.name ≠ "" ∧ '/' ∉ p.name.toList := by
  simp only [parseControllerSpiffe, Option.bind_eq_bind, Option.bind_eq_some_iff]
  constructor
  · rintro ⟨rest, hrest, ⟨host, path⟩, hsplit, h⟩
    obtain ⟨scheme, hscheme, rfl⟩ := afterScheme_eq_some.mp hrest
    obtain ⟨hlist, hhost⟩ := splitOnce_eq_some.mp hsplit
    dsimp only at h
    split at h
    · rename_i first cluster name hsegments
      obtain ⟨rfl, -, hcluster, hname⟩ := segments_eq_three.mp hsegments
      split at h
      · rename_i hne
        obtain ⟨rfl, hhost', hcluster', hname'⟩ := hne
        obtain rfl := Option.some.inj h
        refine ⟨scheme, hscheme, ?_, ⟨hhost', hhost⟩, ⟨hcluster', hcluster⟩, hname', hname⟩
        rw [← String.toList_inj]
        simp [hlist]
      · cases h
    · cases h
  · rintro ⟨scheme, hscheme, rfl, hhost, hcluster, hname⟩
    refine ⟨p.host ++ "/controllers/" ++ p.cluster ++ "/" ++ p.name,
      afterScheme_eq_some.mpr ⟨scheme, hscheme, by simp [String.append_assoc]⟩,
      (p.host, "controllers" ++ "/" ++ p.cluster ++ "/" ++ p.name),
      splitOnce_eq_some.mpr ⟨by simp, hhost.2⟩, ?_⟩
    have hsegments := segments_eq_three.mpr
      ⟨rfl, (by decide : '/' ∉ "controllers".toList), hcluster.2, hname.2⟩
    simp only [hsegments]
    exact if_pos ⟨trivial, hhost.1, hcluster.1, hname.1⟩

theorem spiffePath_of_parse (h : parseControllerSpiffe uri = some p) :
    spiffePath uri = some ("/controllers/" ++ p.cluster ++ "/" ++ p.name) := by
  obtain ⟨scheme, hscheme, rfl, hhost, -, -⟩ := parseControllerSpiffe_eq_some.mp h
  have hrest : afterScheme (scheme ++ p.host ++ "/controllers/" ++ p.cluster ++ "/" ++ p.name) =
      some (p.host ++ "/controllers/" ++ p.cluster ++ "/" ++ p.name) :=
    afterScheme_eq_some.mpr ⟨scheme, hscheme, by simp [String.append_assoc]⟩
  have hsplit : splitOnce '/' (p.host ++ "/controllers/" ++ p.cluster ++ "/" ++ p.name) =
      some (p.host, "controllers/" ++ p.cluster ++ "/" ++ p.name) :=
    splitOnce_eq_some.mpr ⟨by simp, hhost.2⟩
  simp only [spiffePath, hrest, hsplit, Option.bind_eq_bind, Option.bind_some, Option.pure_def,
    Option.some.injEq]
  rw [← String.toList_inj]
  simp

end Parse

section Match

variable {uri trustDomain cluster controllerId : String}

theorem matchUri_eq_ok : matchUri uri trustDomain cluster controllerId = .ok () ↔
    ∃ p, parseControllerSpiffe uri = some p ∧ eqIgnoreAsciiCase p.host trustDomain = true ∧
      p.cluster = cluster ∧ p.cluster ++ "/" ++ p.name = controllerId := by
  rw [matchUri]
  split
  · rename_i p hp
    simp [checkMatch, hp]
  · rename_i hp
    simp [hp]

theorem matchUri_iff_namesPeer : matchUri uri trustDomain cluster controllerId = .ok () ↔
    NamesPeer uri trustDomain cluster controllerId ∧ '/' ∉ trustDomain.toList := by
  rw [matchUri_eq_ok]
  constructor
  · rintro ⟨p, hp, hhost, rfl, rfl⟩
    obtain ⟨scheme, hscheme, rfl, ⟨hne, hslash⟩, hcluster, hname⟩ :=
      parseControllerSpiffe_eq_some.mp hp
    refine ⟨⟨scheme, p.host, p.name, rfl, hscheme, hhost, hname, ?_, hcluster, rfl⟩, ?_⟩
    · rwa [ne_eq, ← eq_empty_of_eqIgnoreAsciiCase hhost]
    · rwa [← slash_mem_of_eqIgnoreAsciiCase hhost]
  · rintro ⟨⟨scheme, host, name, rfl, hscheme, hhost, hname, hne, hcluster, rfl⟩, hslash⟩
    refine ⟨⟨host, cluster, name⟩, parseControllerSpiffe_eq_some.mpr
      ⟨scheme, hscheme, rfl, ⟨?_, ?_⟩, hcluster, hname⟩, hhost, rfl, rfl⟩
    · rwa [ne_eq, eq_empty_of_eqIgnoreAsciiCase hhost]
    · rwa [slash_mem_of_eqIgnoreAsciiCase hhost]

/-- A cluster holds no slash, so a controller id is of one cluster and one name. -/
theorem path_of_matchUri {uri' trustDomain' cluster' : String}
    (h : matchUri uri trustDomain cluster controllerId = .ok ())
    (h' : matchUri uri' trustDomain' cluster' controllerId = .ok ()) :
    cluster = cluster' ∧ spiffePath uri = spiffePath uri' := by
  obtain ⟨p, hp, -, rfl, hid⟩ := matchUri_eq_ok.mp h
  obtain ⟨p', hp', -, rfl, hid'⟩ := matchUri_eq_ok.mp h'
  obtain ⟨-, -, -, -, hcluster, -⟩ := parseControllerSpiffe_eq_some.mp hp
  obtain ⟨-, -, -, -, hcluster', -⟩ := parseControllerSpiffe_eq_some.mp hp'
  have hsplit : splitOnce '/' controllerId = some (p.cluster, p.name) :=
    splitOnce_eq_some.mpr ⟨by simp [← hid], hcluster.2⟩
  have hsplit' : splitOnce '/' controllerId = some (p'.cluster, p'.name) :=
    splitOnce_eq_some.mpr ⟨by simp [← hid'], hcluster'.2⟩
  obtain ⟨hc, hn⟩ := Prod.mk.inj (Option.some.inj (hsplit.symm.trans hsplit'))
  refine ⟨hc, ?_⟩
  rw [spiffePath_of_parse hp, spiffePath_of_parse hp', hc, hn]

theorem singleUri_eq_ok {uris : List String} : singleUri uris = .ok uri ↔ uris = [uri] := by
  rcases uris with _ | ⟨_, _ | ⟨_, _⟩⟩ <;> simp [singleUri]

theorem extractSingleSpiffeUri_eq_ok {leaf : Leaf} : extractSingleSpiffeUri leaf = .ok uri ↔
    ∃ names, leaf.derLen ≤ maxLeafDerLen ∧ leaf.names = some names ∧
      names.length ≤ maxSanEntries ∧ names.filterMap GeneralName.spiffe = [uri] := by
  rw [extractSingleSpiffeUri]
  cases leaf.names <;> simp [singleUri_eq_ok]

/-- A certificate is accepted exactly on the one SPIFFE URI among its names, and does for one
controller of one cluster only. -/
theorem certificate_identity_exact (leaf : Leaf) (trustDomain cluster controllerId : String) :
    (verify leaf trustDomain cluster controllerId = .ok () ↔
      ∃ names, leaf.derLen ≤ maxLeafDerLen ∧ leaf.names = some names ∧
        names.length ≤ maxSanEntries ∧ ∃ uri, names.filterMap GeneralName.spiffe = [uri] ∧
          NamesPeer uri trustDomain cluster controllerId ∧ '/' ∉ trustDomain.toList) ∧
    ∀ trustDomain' cluster' controllerId', verify leaf trustDomain cluster controllerId = .ok () →
      verify leaf trustDomain' cluster' controllerId' = .ok () →
        cluster = cluster' ∧ controllerId = controllerId' := by
  simp only [verify, bind_eq_ok]
  refine ⟨⟨?_, ?_⟩, ?_⟩
  · rintro ⟨uri, hextract, hmatch⟩
    obtain ⟨names, hlen, hnames, hcount, huri⟩ := extractSingleSpiffeUri_eq_ok.mp hextract
    exact ⟨names, hlen, hnames, hcount, uri, huri, matchUri_iff_namesPeer.mp hmatch⟩
  · rintro ⟨names, hlen, hnames, hcount, uri, huri, hpeer⟩
    exact ⟨uri, extractSingleSpiffeUri_eq_ok.mpr ⟨names, hlen, hnames, hcount, huri⟩,
      matchUri_iff_namesPeer.mpr hpeer⟩
  · rintro trustDomain' cluster' controllerId' ⟨uri, hextract, hmatch⟩ ⟨uri', hextract', hmatch'⟩
    obtain rfl : uri = uri' := Except.ok.inj (hextract.symm.trans hextract')
    obtain ⟨p, hp, -, rfl, rfl⟩ := matchUri_eq_ok.mp hmatch
    obtain ⟨p', hp', -, rfl, rfl⟩ := matchUri_eq_ok.mp hmatch'
    obtain rfl : p = p' := Option.some.inj (hp.symm.trans hp')
    exact ⟨rfl, rfl⟩

/-- A trust domain with a slash in it is never matched, although a URI may name it. -/
theorem slashed_trustDomain_rejected : NamesPeer "spiffe://a/b/controllers/c/n" "a/b" "c" "c/n" ∧
      matchUri "spiffe://a/b/controllers/c/n" "a/b" "c" "c/n" = .error .mismatch := by
  constructor
  · exact ⟨"spiffe://", "a/b", "n", rfl, rfl, rfl, by decide, by decide, by decide, rfl⟩
  · decide

/-- A peer passes for a controller exactly if its URI names that controller in the trust domain,
and whoever passes for the same controller comes from the same cluster under the same path. -/
theorem peer_identity_exact (uri trustDomain cluster controllerId : String) :
    (matchUri uri trustDomain cluster controllerId = .ok () ↔
      NamesPeer uri trustDomain cluster controllerId ∧ '/' ∉ trustDomain.toList) ∧
    ∀ uri' trustDomain' cluster', matchUri uri trustDomain cluster controllerId = .ok () →
      matchUri uri' trustDomain' cluster' controllerId = .ok () →
        cluster = cluster' ∧ spiffePath uri = spiffePath uri' :=
  ⟨matchUri_iff_namesPeer, fun _ _ _ h h' => path_of_matchUri h h'⟩

end Match

end EdgionCenter.Spiffe

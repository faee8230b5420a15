import Mathlib.Data.List.DropRight
import Mathlib.Data.String.Basic

/-! # The root certificate store (`certs.rs`)

`get_root_cert_store` (lines 21–103) builds the `RootCertStore` the runtime's TLS clients trust.
It takes the list of stores it is given, or else the comma-separated list in
`DENO_TLS_CA_STORE` (each name trimmed, empty names dropped), or else `["mozilla"]`; adds each
store in order (the bundled `webpki_roots`, or the platform's certificates); and then adds the
certificates of the CA data it is given, or else of the file `DENO_CERT` names.  An unknown store
name is an `Err` naming it; a platform store that cannot be loaded, or a platform certificate the
store rejects, is an `expect` panic, whose message is the `expect` text, `": "`, and the error's
`Debug` text, as `Result::expect` formats it.

Strings are Unicode scalar sequences (`List Char`); `str::trim` strips the characters of
`char::is_whitespace`.  Paths are their text, joined as `Path::join` does on Unix.  The
environment and what the platform, the file system and `rustls_pemfile` answer are
`CertAnswers`.

The store list of `DENO_TLS_CA_STORE` is a format with a round trip: the names `splitCaStores`
returns are nonempty, hold no comma and are their own trim, and any list of such names joined by
commas reads back as itself (`caStores_format`).  A value made only of commas and whitespace
reads as no store at all, so it drops the `mozilla` default (`blank_ca_store_drops_defaults`).
The first store that cannot be added decides the error, whatever follows it
(`first_failing_store_decides`).
-/

namespace EdgeRuntime.Certs

/-! ## The model -/

/-- The characters above U+007F with the Unicode `White_Space` property. -/
def whiteSpaceAbove7F (n : Nat) : Bool :=
  n == 0x85 || n == 0xA0 || n == 0x1680 || (0x2000 ≤ n && n ≤ 0x200A) || n == 0x2028 ||
    n == 0x2029 || n == 0x202F || n == 0x205F || n == 0x3000

/-- `char::is_whitespace`: a space, a control character from tab to carriage return, or a
character above U+007F with the `White_Space` property. -/
def isWhitespace (c : Char) : Bool :=
  c == ' ' || (0x09 ≤ c.toNat && c.toNat ≤ 0x0D) || (0x7F < c.toNat && whiteSpaceAbove7F c.toNat)

/-- `str::trim`: leading and trailing whitespace removed. -/
def trim (s : List Char) : List Char := (s.dropWhile isWhitespace).rdropWhile isWhitespace

/-- The store names `DENO_TLS_CA_STORE` lists (lines 29–35): split at each comma, each part
trimmed, empty parts dropped. -/
def splitCaStores (envCaStore : String) : List String :=
  ((envCaStore.toList.splitOn ',').map fun s => String.mk (trim s)).filter fun s => !s.isEmpty

/-- `ca_stores` (lines 27–38): the stores given, else those `DENO_TLS_CA_STORE` lists, else
`mozilla`. -/
def caStores (maybeCaStores : Option (List String)) (envCaStore : Option String) : List String :=
  (maybeCaStores.orElse fun _ => envCaStore.map splitCaStores).getD ["mozilla"]

/-- `CaData`: a file path, or the certificates' bytes. -/
inductive CaData
  | file (path : String)
  | bytes (data : List UInt8)
  deriving Repr, DecidableEq

/-- A trust anchor the store holds. -/
inductive Root
  /-- `webpki_roots::TLS_SERVER_ROOTS`, added by `add_server_trust_anchors`. -/
  | mozilla
  /-- A platform certificate, added by `RootCertStore::add`. -/
  | platform (der : List UInt8)
  /-- A certificate of the CA data, added by `add_parsable_certificates`. -/
  | caCert (der : List UInt8)
  deriving Repr, DecidableEq

/-- How a call ends: with its value, with an `Err`, or in a panic. -/
inductive Outcome (α : Type)
  | ok (a : α)
  | err (msg : String)
  | panic (msg : String)
  deriving Repr, DecidableEq

/-- The environment, and the outside world's answers to what `get_root_cert_store` asks. -/
structure CertAnswers where
  /-- `env::var("DENO_TLS_CA_STORE").ok()`. -/
  envCaStore : Option String
  /-- `env::var("DENO_CERT").ok()`. -/
  envCert : Option String
  /-- `load_native_certs()`: the platform's certificates, or the `Debug` text of its error. -/
  loadNativeCerts : Except String (List (List UInt8))
  /-- `RootCertStore::add` on a platform certificate: `Ok`, or the `Debug` text of its error. -/
  add : List UInt8 → Except String Unit
  /-- `File::open(path)` failing, or `rustls_pemfile::certs` on the opened file. -/
  readPemFile : String → Except String (Except String (List (List UInt8)))
  /-- `rustls_pemfile::certs` on CA data given as bytes. -/
  pemCerts : List UInt8 → Except String (List (List UInt8))
  /-- Whether `add_parsable_certificates` parses a certificate as a trust anchor. -/
  parsable : List UInt8 → Bool

/-- `Path::join` on Unix (`PathBuf::push`): an absolute `path` replaces `root`; otherwise it
follows `root` after a separator, unless `root` is empty or already ends in one. -/
def pathJoin (root path : String) : String :=
  if path.toList.head? = some '/' then path
  else
    match root.toList.getLast? with
    | none | some '/' => root ++ path
    | some _ => root ++ "/" ++ path

/-- The platform certificates added one by one (lines 55–59), each `add` unwrapped by `expect`. -/
def addPlatformCerts (a : CertAnswers) (roots : List Root) :
    List (List UInt8) → Outcome (List Root)
  | [] => .ok roots
  | der :: ders =>
    match a.add der with
    | .ok () => addPlatformCerts a (roots ++ [.platform der]) ders
    | .error e => .panic ("Failed to add platform cert to root cert store: " ++ e)

/-- The loop over `ca_stores` (lines 40–68), from the roots added so far. -/
def addStores (a : CertAnswers) (roots : List Root) : List String → Outcome (List Root)
  | [] => .ok roots
  | store :: rest =>
    if store = "mozilla" then addStores a (roots ++ [.mozilla]) rest
    else if store = "system" then
      match a.loadNativeCerts with
      | .error e => .panic ("could not load platform certs: " ++ e)
      | .ok certs =>
        match addPlatformCerts a roots certs with
        | .ok roots' => addStores a roots' rest
        | .err e => .err e
        | .panic e => .panic e
    else
      .err ("Unknown certificate store \"" ++ store ++ "\" specified (allowed: \"system,mozilla\")")

/-- `ca_data` (line 70): the CA data given, else the file `DENO_CERT` names. -/
def caDataOf (maybeCaData : Option CaData) (envCert : Option String) : Option CaData :=
  maybeCaData.orElse fun _ => envCert.map .file

/-- The CA data's certificates added (lines 71–100): a file is read at its path joined to the
root path, if any; a read error is returned by `?`, a PEM error with its own message. -/
def addCaData (a : CertAnswers) (maybeRootPath : Option String) (roots : List Root) :
    Option CaData → Outcome (List Root)
  | none => .ok roots
  | some caData =>
    let result : Except String (Except String (List (List UInt8))) :=
      match caData with
      | .file caFile =>
        a.readPemFile (match maybeRootPath with
          | some root => pathJoin root caFile
          | none => caFile)
      | .bytes data => .ok (a.pemCerts data)
    match result with
    | .error e => .err e
    | .ok (.error e) => .err ("Unable to add pem file to certificate store: " ++ e)
    | .ok (.ok certs) => .ok (roots ++ (certs.filter a.parsable).map .caCert)

/-- `get_root_cert_store` (lines 21–103). -/
def getRootCertStore (a : CertAnswers) (maybeRootPath : Option String)
    (maybeCaStores : Option (List String)) (maybeCaData : Option CaData) : Outcome (List Root) :=
  match addStores a [] (caStores maybeCaStores a.envCaStore) with
  | .ok roots => addCaData a maybeRootPath roots (caDataOf maybeCaData a.envCert)
  | .err e => .err e
  | .panic e => .panic e

/-- `resolve_cert_store` (lines 105–111): no root path, the stores of the environment, and the
CA data as bytes. -/
def resolveCertStore (a : CertAnswers) (caData : Option (List UInt8)) : Outcome (List Root) :=
  getRootCertStore a none none (caData.map .bytes)

/-- A name `splitCaStores` can return: nonempty, without a comma, and its own trim. -/
def isStoreName (n : String) : Bool :=
  !n.isEmpty && !n.toList.contains ',' && trim n.toList == n.toList

/-- The errors `RootCertStore::add` returns for `certs`, in order. -/
def addErrors (a : CertAnswers) (certs : List (List UInt8)) : List String :=
  certs.filterMap fun der =>
    match a.add der with
    | .ok () => none
    | .error e => some e

/-- The roots the platform store adds: all of `load_native_certs`'s certificates, when it
succeeds and the store accepts each of them; `none` when adding it panics. -/
def platformRoots (a : CertAnswers) : Option (List Root) :=
  match a.loadNativeCerts with
  | .ok certs => if addErrors a certs = [] then some (certs.map .platform) else none
  | .error _ => none

/-- The panic of a platform store that cannot be added: the `expect` that fails, with the
`Debug` text of its error, the first certificate the store rejects for the second. -/
def platformPanic (a : CertAnswers) : String :=
  match a.loadNativeCerts with
  | .error e => "could not load platform certs: " ++ e
  | .ok certs =>
    "Failed to add platform cert to root cert store: " ++ (addErrors a certs).head?.getD ""

/-- The roots a store name adds, or `none` when adding it fails. -/
def storeRoots (a : CertAnswers) (store : String) : Option (List Root) :=
  if store = "mozilla" then some [.mozilla] else if store = "system" then platformRoots a else none

/-! ## Trimming -/

theorem mem_of_mem_trim {s : List Char} {c : Char} (h : c ∈ trim s) : c ∈ s :=
  (List.dropWhile_suffix isWhitespace).subset
    ((List.rdropWhile_prefix isWhitespace (s.dropWhile isWhitespace)).subset h)

/-- Trimming twice trims once: what is left starts and ends with a non-blank character. -/
theorem trim_trim (s : List Char) : trim (trim s) = trim s := by
  unfold trim
  refine (congrArg _ (List.dropWhile_eq_self_iff.mpr fun hl => ?_)).trans
    (List.rdropWhile_idempotent _ _)
  -- the trimmed text starts where the text without its leading whitespace does
  obtain ⟨t, ht⟩ := List.rdropWhile_prefix isWhitespace (s.dropWhile isWhitespace)
  have hpre : ∀ c, ((s.dropWhile isWhitespace).rdropWhile isWhitespace).head? = some c →
      (s.dropWhile isWhitespace).head? = some c := fun c hc => by
    rw [← ht, List.head?_append, hc]; rfl
  have h := List.head?_dropWhile_not isWhitespace s
  rw [hpre _ (by rw [List.head?_eq_getElem?, List.getElem?_eq_getElem hl])] at h
  simpa using h

theorem trim_eq_nil_iff (s : List Char) : trim s = [] ↔ ∀ c ∈ s, isWhitespace c = true := by
  unfold trim
  rw [List.rdropWhile_eq_nil_iff]
  constructor
  · intro h
    have h' : (s.dropWhile isWhitespace).dropWhile isWhitespace = [] :=
      List.dropWhile_eq_nil_iff.mpr h
    rw [List.dropWhile_idempotent] at h'
    exact List.dropWhile_eq_nil_iff.mp h'
  · exact fun h c hc => h c ((List.dropWhile_suffix isWhitespace).subset hc)

/-! ## Splitting at commas and joining with them -/

/-- No part of a split holds a separator. -/
theorem splitOnP_sep_free {α : Type} (p : α → Bool) :
    ∀ (l seg : List α), seg ∈ l.splitOnP p → ∀ x ∈ seg, p x = false
  | [], seg, h => by simp at h; simp [h]
  | y :: l, seg, h => by
    rw [List.splitOnP_cons] at h
    split at h
    · rcases List.mem_cons.mp h with rfl | h
      · simp
      · exact splitOnP_sep_free p l seg h
    · rename_i hy
      obtain ⟨hd, tl, hht⟩ := List.exists_cons_of_ne_nil (List.splitOnP_ne_nil p l)
      rw [hht, List.modifyHead_cons] at h
      rcases List.mem_cons.mp h with rfl | h
      · intro x hx
        rcases List.mem_cons.mp hx with rfl | hx
        · simpa using hy
        · exact splitOnP_sep_free p l hd (by simp [hht]) x hx
      · exact splitOnP_sep_free p l seg (by simp [hht, h])

theorem intercalate_cons {α : Type} (sep a : List α) :
    ∀ l : List (List α), sep.intercalate (a :: l) = a ++ (l.map (sep ++ ·)).flatten
  | [] => by simp [List.intercalate]
  | b :: l => by
    rw [List.intercalate, List.intersperse_cons_cons, List.flatten_cons, List.flatten_cons,
      ← List.intercalate, intercalate_cons sep b l]
    simp

theorem intercalate_go_toList (s : String) : ∀ (acc : String) (l : List String),
    (String.intercalate.go acc s l).toList =
      acc.toList ++ (l.map fun b => s.toList ++ b.toList).flatten
  | _, [] => by simp [String.intercalate.go]
  | acc, b :: l => by
    rw [String.intercalate.go, intercalate_go_toList]
    simp [String.toList, List.append_assoc]

theorem toList_intercalate (s : String) : ∀ names : List String,
    (String.intercalate s names).toList = s.toList.intercalate (names.map String.toList)
  | [] => rfl
  | a :: l => by
    rw [String.intercalate, intercalate_go_toList, List.map_cons, intercalate_cons]
    simp [Function.comp_def, String.toList]

/-! ## The store list of `DENO_TLS_CA_STORE` -/

theorem mk_eq_empty_iff (l : List Char) : String.mk l = "" ↔ l = [] :=
  ⟨fun h => congrArg String.data h, fun h => h ▸ rfl⟩

theorem isEmpty_eq_false_iff (n : String) : n.isEmpty = false ↔ n ≠ "" := by
  rw [Ne, ← String.isEmpty_iff]
  simp

theorem isStoreName_iff (n : String) :
    isStoreName n = true ↔ n ≠ "" ∧ ',' ∉ n.toList ∧ trim n.toList = n.toList := by
  simp [isStoreName, isEmpty_eq_false_iff, and_assoc]

/-- Every name read from `DENO_TLS_CA_STORE` is a store name. -/
theorem isStoreName_of_mem_splitCaStores {s n : String} (h : n ∈ splitCaStores s) :
    isStoreName n = true := by
  obtain ⟨hmem, hne⟩ := List.mem_filter.mp h
  obtain ⟨seg, hseg, rfl⟩ := List.mem_map.mp hmem
  rw [isStoreName_iff]
  refine ⟨by simpa [isEmpty_eq_false_iff] using hne, fun hc => ?_, trim_trim seg⟩
  have := splitOnP_sep_free _ _ seg hseg ',' (mem_of_mem_trim hc)
  simp at this

/-- Store names joined by commas read back as themselves. -/
theorem splitCaStores_intercalate (names : List String)
    (h : ∀ n ∈ names, isStoreName n = true) :
    splitCaStores (String.intercalate "," names) = names := by
  cases names with
  | nil => rfl
  | cons n ns =>
    have hsep : ∀ l ∈ (n :: ns).map String.toList, ',' ∉ l := by
      intro l hl
      obtain ⟨m, hm, rfl⟩ := List.mem_map.mp hl
      exact ((isStoreName_iff m).mp (h m hm)).2.1
    have hsplit : (String.intercalate "," (n :: ns)).toList.splitOn ',' =
        (n :: ns).map String.toList := by
      rw [toList_intercalate]
      exact List.splitOn_intercalate _ ',' hsep (by simp)
    have htrim : ((n :: ns).map String.toList).map (fun s => String.mk (trim s)) = n :: ns := by
      rw [List.map_map]
      conv_rhs => rw [← List.map_id (n :: ns)]
      refine List.map_congr_left fun m hm => ?_
      show String.mk (trim m.toList) = m
      rw [((isStoreName_iff m).mp (h m hm)).2.2]
      rfl
    unfold splitCaStores
    rw [hsplit, htrim]
    exact List.filter_eq_self.mpr fun m hm => by
      simpa [isEmpty_eq_false_iff] using ((isStoreName_iff m).mp (h m hm)).1

/-- **The store list of `DENO_TLS_CA_STORE` is a format with a round trip.**  Every name
`get_root_cert_store` reads from the variable is nonempty, holds no comma and is its own trim;
and any list of such names, joined by commas, reads back as itself. -/
theorem caStores_format :
    (∀ s, ∀ n ∈ splitCaStores s, isStoreName n = true) ∧
    (∀ names : List String, (∀ n ∈ names, isStoreName n = true) →
      splitCaStores (String.intercalate "," names) = names) :=
  ⟨fun _ _ h => isStoreName_of_mem_splitCaStores h, splitCaStores_intercalate⟩

/-- A character other than the comma is in a string exactly when it is in one of its parts. -/
theorem mem_iff_mem_splitOn {l : List Char} {c : Char} (hc : c ≠ ',') :
    c ∈ l ↔ ∃ seg ∈ l.splitOn ',', c ∈ seg := by
  obtain ⟨a, rest, hal⟩ := List.exists_cons_of_ne_nil (List.splitOnP_ne_nil (· == ',') l)
  have hl : l = a ++ (rest.map ([','] ++ ·)).flatten := by
    conv_lhs => rw [← List.intercalate_splitOn l ',']
    rw [List.splitOn, hal, intercalate_cons]
  conv_lhs => rw [hl]
  rw [List.splitOn, hal]
  simp [hc]

/-- The variable reads as no store at all exactly when it holds nothing but commas and
whitespace. -/
theorem splitCaStores_eq_nil_iff (s : String) :
    splitCaStores s = [] ↔ ∀ c ∈ s.toList, c = ',' ∨ isWhitespace c = true := by
  have hsegs : splitCaStores s = [] ↔
      ∀ seg ∈ s.toList.splitOn ',', ∀ c ∈ seg, isWhitespace c = true := by
    simp [splitCaStores, String.isEmpty_iff, mk_eq_empty_iff, trim_eq_nil_iff]
  rw [hsegs]
  constructor
  · intro h c hc
    by_cases hcomma : c = ','
    · exact .inl hcomma
    · obtain ⟨seg, hseg, hcs⟩ := (mem_iff_mem_splitOn hcomma).mp hc
      exact .inr (h seg hseg c hcs)
  · intro h seg hseg c hc
    have hcomma : c ≠ ',' := fun hcomma => by
      simpa [hcomma] using splitOnP_sep_free _ _ seg hseg c hc
    exact (h c ((mem_iff_mem_splitOn hcomma).mpr ⟨seg, hseg, hc⟩)).resolve_left hcomma

/-! ## The stores, in order -/

/-- The platform certificates are all added, or the first the store rejects panics. -/
theorem addPlatformCerts_eq (a : CertAnswers) : ∀ (roots : List Root) (certs : List (List UInt8)),
    addPlatformCerts a roots certs =
      match addErrors a certs with
      | [] => .ok (roots ++ certs.map .platform)
      | e :: _ => .panic ("Failed to add platform cert to root cert store: " ++ e)
  | _, [] => by simp [addPlatformCerts, addErrors]
  | roots, der :: ders => by
    have ih := addPlatformCerts_eq a (roots ++ [.platform der]) ders
    cases h : a.add der with
    | ok u => simpa [addPlatformCerts, addErrors, h] using ih
    | error e => simp [addPlatformCerts, addErrors, h]

/-- The platform store's turn of the loop. -/
theorem addStores_system (a : CertAnswers) (roots : List Root) (rest : List String) :
    addStores a roots ("system" :: rest) =
      match platformRoots a with
      | some rs => addStores a (roots ++ rs) rest
      | none => .panic (platformPanic a) := by
  have hne : ¬("system" = "mozilla") := by decide
  rw [addStores, if_neg hne, if_pos rfl]
  unfold platformRoots platformPanic
  cases a.loadNativeCerts with
  | error e => rfl
  | ok certs =>
    dsimp only
    rw [addPlatformCerts_eq]
    cases addErrors a certs <;> simp

/-- **One turn of the store loop**, by what the store adds: its roots, or the error or panic
of a store that cannot be added. -/
theorem addStores_cons (a : CertAnswers) (roots : List Root) (store : String)
    (rest : List String) :
    addStores a roots (store :: rest) =
      match storeRoots a store with
      | some rs => addStores a (roots ++ rs) rest
      | none =>
        if store = "system" then .panic (platformPanic a)
        else .err ("Unknown certificate store \"" ++ store ++
          "\" specified (allowed: \"system,mozilla\")") := by
  unfold storeRoots
  by_cases hm : store = "mozilla"
  · simp [addStores, hm]
  · by_cases hsys : store = "system"
    · rw [if_neg hm, if_pos hsys, hsys, addStores_system]
      cases platformRoots a <;> rfl
    · simp [addStores, hm, hsys]

/-- Stores that each add their roots leave the loop going. -/
theorem addStores_append_of_isSome (a : CertAnswers) :
    ∀ (roots : List Root) (pre rest : List String), (∀ s ∈ pre, (storeRoots a s).isSome) →
      ∃ roots', addStores a roots (pre ++ rest) = addStores a roots' rest
  | roots, [], _, _ => ⟨roots, rfl⟩
  | roots, s :: pre, rest, h => by
    obtain ⟨rs, hrs⟩ := Option.isSome_iff_exists.mp (h s (List.mem_cons_self _ _))
    rw [List.cons_append, addStores_cons, hrs]
    exact addStores_append_of_isSome a _ pre rest fun s' hs' => h s' (List.mem_cons_of_mem _ hs')

/-- **The first store that cannot be added decides the outcome.**  When every store before it in
the list `get_root_cert_store` uses adds its roots, an unknown store name ends the call in an
`Err` that names it, and a platform store that cannot be added ends it in a panic; whatever
stores follow it and whatever CA data is given, none of them is looked at. -/
theorem first_failing_store_decides (a : CertAnswers) (maybeRootPath : Option String)
    (maybeCaStores : Option (List String)) (maybeCaData : Option CaData)
    (pre : List String) (store : String) (post : List String)
    (hs : caStores maybeCaStores a.envCaStore = pre ++ store :: post)
    (hpre : ∀ s ∈ pre, (storeRoots a s).isSome) (hstore : storeRoots a store = none) :
    getRootCertStore a maybeRootPath maybeCaStores maybeCaData =
      if store = "system" then .panic (platformPanic a)
      else .err ("Unknown certificate store \"" ++ store ++
        "\" specified (allowed: \"system,mozilla\")") := by
  obtain ⟨roots', h⟩ := addStores_append_of_isSome a [] pre (store :: post) hpre
  unfold getRootCertStore
  rw [hs, h, addStores_cons, hstore]
  by_cases hsys : store = "system" <;> simp [hsys]

/-- A listed store that is unknown, after `mozilla`, in `DENO_TLS_CA_STORE`. -/
def bogusStoreAnswers : CertAnswers :=
  ⟨some "mozilla, bogus, system", none, .ok [], fun _ => .ok (), fun _ => .ok (.ok []),
    fun _ => .ok [], fun _ => true⟩

theorem first_failing_store_decides_bogus :
    caStores none bogusStoreAnswers.envCaStore = ["mozilla"] ++ "bogus" :: ["system"] ∧
      getRootCertStore bogusStoreAnswers none none none =
        .err "Unknown certificate store \"bogus\" specified (allowed: \"system,mozilla\")" := by
  have hs : caStores none bogusStoreAnswers.envCaStore = ["mozilla"] ++ "bogus" :: ["system"] := by
    decide
  refine ⟨hs, ?_⟩
  rw [first_failing_store_decides bogusStoreAnswers none none none ["mozilla"] "bogus" ["system"]
    hs (by decide) (by decide)]
  rfl

/-- **A blank `DENO_TLS_CA_STORE` drops the default store.**  The variable reads as no store at
all exactly when it holds nothing but commas and whitespace (the empty value included).  With no
store list given, such a value makes `get_root_cert_store` add no store's roots, returning the CA
data's certificates alone, where an unset variable gives the `mozilla` roots. -/
theorem blank_ca_store_drops_defaults (a : CertAnswers) (maybeRootPath : Option String)
    (maybeCaData : Option CaData) :
    (∀ s, splitCaStores s = [] ↔ ∀ c ∈ s.toList, c = ',' ∨ isWhitespace c = true) ∧
    (∀ s, a.envCaStore = some s → (∀ c ∈ s.toList, c = ',' ∨ isWhitespace c = true) →
      getRootCertStore a maybeRootPath none maybeCaData =
        addCaData a maybeRootPath [] (caDataOf maybeCaData a.envCert)) ∧
    (a.envCaStore = none →
      getRootCertStore a maybeRootPath none maybeCaData =
        addCaData a maybeRootPath [.mozilla] (caDataOf maybeCaData a.envCert)) := by
  refine ⟨splitCaStores_eq_nil_iff, fun s hs hblank => ?_, fun hs => ?_⟩
  · have hnil : caStores none a.envCaStore = [] := by
      simp [caStores, hs, (splitCaStores_eq_nil_iff s).mpr hblank]
    simp only [getRootCertStore, hnil, addStores]
  · have hmoz : caStores none a.envCaStore = ["mozilla"] := by simp [caStores, hs]
    simp [getRootCertStore, hmoz, addStores]

end EdgeRuntime.Certs

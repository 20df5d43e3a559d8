import Mathlib
import EngineClient.Proofs.Bucket.Ending

/-!
# What a listing has received

A listing that answers with keys has received a body for each of its requests, and answers with the
keys of them all. Each body but the last says that the listing goes on and names the token of the
next. The last one does not say so, or it names no token: then the listing stops there, and what it
answers is only a part. A request that brings no body makes the listing an error.
-/

namespace EngineClient

namespace Bucket

variable {net : Network} {b : Bucket} {folder : String} {token : Option String}
variable {past asked : List Url} {url : Url} {body last : List Char} {bodies : List (List Char)}
variable {found : List String} {next : String} {pages : Nat} {e : Error}

/-- The bodies that a listing has received when it stops, one for each of its requests, from that for
a first token on. -/
inductive Receives (net : Network) (b : Bucket) (folder : String) (token : Option String)
    (past : List Url) : List (List Char) → List Url → Prop
  | intro {bodies : List (List Char)} {token' : Option String} {past' : List Url} {url : Url}
      {last : List Char} (hchain : Chain net b folder token past bodies token' past')
      (hlast : Serves net b folder token' past' url last)
      (hstops : Listing.isTruncated last = true → Listing.nextToken? last = none) :
      Receives net b folder token past (bodies ++ [last]) (url :: past')

/-- The error of a listing that has received some bodies: the next request fails, is refused, or its
body does not arrive as a whole. -/
inductive Fails (net : Network) (b : Bucket) (folder : String) (token : Option String)
    (past : List Url) : List (List Char) → Error → List Url → Prop
  | intro {bodies : List (List Char)} {token' : Option String} {past' asked : List Url}
      {reply : Except Http.Failure Http.Response} {e : Error}
      (hchain : Chain net b folder token past bodies token' past')
      (hsend : send net (b.pageAddress folder token') past' = (reply, asked))
      (herror : pageText folder reply = .error e) : Fails net b folder token past bodies e asked

/-! ## What follows from the bodies -/

private theorem nextPage?_eq_none_iff : nextPage? last = none ↔
    (Listing.isTruncated last = true → Listing.nextToken? last = none) := by
  rw [nextPage?]
  split
  · next htruncated => exact ⟨fun h _ => h, fun h => h htruncated⟩
  · next htruncated => exact ⟨fun _ h => absurd h htruncated, fun _ => rfl⟩

private theorem Receives.listPages (h : Receives net b folder token past bodies asked)
    (hpages : bodies.length ≤ pages) :
    Bucket.listPages net b folder pages token found past =
      (some (.ok (found ++ bodies.flatMap Listing.keys)), asked) := by
  obtain ⟨hchain, hlast, hstops⟩ := h
  rw [List.length_append, List.length_singleton] at hpages
  obtain ⟨left, rfl⟩ := Nat.exists_eq_add_of_lt hpages
  rw [Nat.add_assoc, hchain.listPages,
    Bucket.listPages_last hlast (nextPage?_eq_none_iff.mpr hstops), List.flatMap_append,
    List.flatMap_singleton, List.append_assoc]

private theorem Fails.listPages (h : Fails net b folder token past bodies e asked)
    (hpages : bodies.length < pages) :
    Bucket.listPages net b folder pages token found past = (some (.error e), asked) := by
  obtain ⟨hchain, hsend, herror⟩ := h
  obtain ⟨left, rfl⟩ := Nat.exists_eq_add_of_lt hpages
  rw [Nat.add_assoc, hchain.listPages, Bucket.listPages_error hsend herror]

/-! ## What a listing comes to -/

private theorem Receives.cons (hnames : Names net b folder token past url body next)
    (h : Receives net b folder (some next) (url :: past) bodies asked) :
    Receives net b folder token past (body :: bodies) asked := by
  obtain ⟨hchain, hlast, hstops⟩ := h
  exact .intro (.cons hnames.serves hnames.truncated hnames.next hchain) hlast hstops

private theorem Fails.cons (hnames : Names net b folder token past url body next)
    (h : Fails net b folder (some next) (url :: past) bodies e asked) :
    Fails net b folder token past (body :: bodies) e asked := by
  obtain ⟨hchain, hsend, herror⟩ := h
  exact .intro (.cons hnames.serves hnames.truncated hnames.next hchain) hsend herror

/-- A listing that comes to a result has received some bodies and stopped, or received some and
failed. -/
theorem received_or_failed {result : Except Error (List String)}
    (h : listPages net b folder pages token found past = (some result, asked)) :
    (∃ bodies, Receives net b folder token past bodies asked ∧ bodies.length ≤ pages ∧
        result = .ok (found ++ bodies.flatMap Listing.keys)) ∨
      ∃ bodies e, Fails net b folder token past bodies e asked ∧ bodies.length < pages ∧
        result = .error e := by
  induction pages generalizing token found past with
  | zero => cases h
  | succ pages ih =>
    rcases htext : pageText folder (send net (b.pageAddress folder token) past).1 with e | body
    · have hfails : Fails net b folder token past [] e _ := .intro .nil rfl htext
      rw [hfails.listPages (Nat.succ_pos pages)] at h
      cases h
      exact .inr ⟨[], e, hfails, Nat.succ_pos pages, rfl⟩
    obtain ⟨url, hserves⟩ := serves_of_pageText htext
    cases hpage : nextPage? body with
    | none =>
      have hreceives : Receives net b folder token past ([] ++ [body]) (url :: past) :=
        .intro .nil hserves (nextPage?_eq_none_iff.mp hpage)
      have hone : ([] ++ [body]).length ≤ pages + 1 := Nat.succ_le_succ (Nat.zero_le pages)
      rw [hreceives.listPages hone] at h
      cases h
      exact .inl ⟨_, hreceives, hone, rfl⟩
    | some next =>
      have hnames := hserves.names hpage
      rw [listPages_next hserves hpage] at h
      rcases ih h with ⟨bodies, hreceives, hpages, hresult⟩ | ⟨bodies, e, hfails, hpages, hresult⟩
      · refine .inl ⟨body :: bodies, hreceives.cons hnames, Nat.succ_le_succ hpages, ?_⟩
        rw [hresult, List.flatMap_cons, List.append_assoc]
      · exact .inr ⟨body :: bodies, e, hfails.cons hnames, Nat.succ_lt_succ hpages, hresult⟩

private theorem listPages_eq_ok_iff {keys : List String} :
    listPages net b folder pages token [] past = (some (.ok keys), asked) ↔
      ∃ bodies, Receives net b folder token past bodies asked ∧ bodies.length ≤ pages ∧
        keys = bodies.flatMap Listing.keys := by
  constructor
  · intro h
    rcases received_or_failed h with ⟨bodies, hreceives, hpages, hkeys⟩ | ⟨_, _, _, _, hresult⟩
    · exact ⟨bodies, hreceives, hpages, Except.ok.inj hkeys⟩
    · cases hresult
  · rintro ⟨bodies, hreceives, hpages, rfl⟩
    exact hreceives.listPages hpages

private theorem listPages_eq_error_iff :
    listPages net b folder pages token [] past = (some (.error e), asked) ↔
      ∃ bodies, Fails net b folder token past bodies e asked ∧ bodies.length < pages := by
  constructor
  · intro h
    rcases received_or_failed h with ⟨_, _, _, hresult⟩ | ⟨bodies, e', hfails, hpages, hresult⟩
    · cases hresult
    · cases hresult
      exact ⟨bodies, hfails, hpages⟩
  · rintro ⟨bodies, hfails, hpages⟩
    exact hfails.listPages hpages

private theorem Receives.length_asked (h : Receives net b folder none [] bodies asked) :
    asked.length = bodies.length := by
  obtain ⟨hchain, -, -⟩ := h
  rw [List.length_cons, hchain.length_past, List.length_append, List.length_nil, Nat.zero_add,
    List.length_singleton]

private theorem listKeys_eq_ok {fs : FileSystem} {keys : List String}
    (h : (b.repository net pages).listKeys fs folder = .ok keys) :
    ∃ asked, listPages net b folder pages none [] [] = (some (.ok keys), asked) := by
  rcases hlist : listPages net b folder pages none [] [] with ⟨result?, asked⟩
  rw [repository] at h
  simp only [hlist] at h
  cases result? with
  | none => cases h
  | some result =>
    obtain rfl : result = .ok keys := h
    exact ⟨asked, rfl⟩

private theorem Receives.latest? {keys : List String} (fs : FileSystem) (platform : Platform)
    (h : Receives net b platform.folder none [] bodies asked) (hpages : bodies.length ≤ pages)
    (hkeys : bodies.flatMap Listing.keys = keys) :
    (b.repository net pages).latest? fs platform = .ok (Repository.select keys) := by
  apply Repository.latest?_of_listKeys
  rw [repository]
  simp only [h.listPages hpages, hkeys, List.nil_append]

/-- For every network: a listing answers with keys exactly if it has received a body for each of its
requests, each of them but the last naming the token of the next, while the last does not say that
the listing goes on, or names no token; the keys are those of all bodies. It is an error exactly if
one of the requests brings no body. So what is selected from it is selected from the keys of all
bodies, a part of the listing only where the last of them says that it goes on but names no token. -/
theorem listing_whole_unless_tokenless (net : Network) (b : Bucket) (folder : String)
    (pages : Nat) :
    (∀ keys asked, listPages net b folder pages none [] [] = (some (.ok keys), asked) ↔
        ∃ bodies, Receives net b folder none [] bodies asked ∧ asked.length = bodies.length ∧
          bodies.length ≤ pages ∧ keys = bodies.flatMap Listing.keys) ∧
      (∀ e asked, listPages net b folder pages none [] [] = (some (.error e), asked) ↔
        ∃ bodies, Fails net b folder none [] bodies e asked ∧ bodies.length < pages) ∧
      ∀ fs platform found, platform.folder = folder →
        (b.repository net pages).latest? fs platform = .ok found →
        ∃ bodies asked, Receives net b folder none [] bodies asked ∧
          Repository.SelectsFirst (bodies.flatMap Listing.keys) found := by
  refine ⟨fun keys asked => ?_, fun e asked => listPages_eq_error_iff,
    fun fs platform found hfolder h => ?_⟩
  · rw [listPages_eq_ok_iff]
    constructor
    · rintro ⟨bodies, hreceives, hpages, hkeys⟩
      exact ⟨bodies, hreceives, hreceives.length_asked, hpages, hkeys⟩
    · rintro ⟨bodies, hreceives, -, hpages, hkeys⟩
      exact ⟨bodies, hreceives, hpages, hkeys⟩
  · obtain ⟨keys, hkeys, rfl⟩ := Repository.latest?_eq_ok h
    rw [hfolder] at hkeys
    obtain ⟨asked, hlist⟩ := listKeys_eq_ok hkeys
    obtain ⟨bodies, hreceives, -, rfl⟩ := listPages_eq_ok_iff.mp hlist
    exact ⟨bodies, asked, hreceives, Repository.select_selectsFirst _⟩

theorem listing_whole_unless_tokenless_two :
    let asked := [sampleUrl "&continuation-token=a%26b", sampleUrl ""]
    (∃ bodies, Receives sampleNetwork sampleBucket "release/linux-x86_64" none [] bodies asked ∧
        asked.length = bodies.length ∧ bodies.length ≤ 2 ∧
        ["release/linux-x86_64/2.0.0-e", "release/linux-x86_64/3.0.0-e"] =
          bodies.flatMap Listing.keys) ∧
      ∃ bodies asked,
        Receives sampleNetwork sampleBucket "release/linux-x86_64" none [] bodies asked ∧
          Repository.SelectsFirst (bodies.flatMap Listing.keys)
            (some ⟨⟨3, 0, 0, none, none⟩, "release/linux-x86_64/3.0.0-e"⟩) := by
  have hreceives : Receives sampleNetwork sampleBucket "release/linux-x86_64" none []
      ([firstPage.toList] ++ [secondPage.toList])
      [sampleUrl "&continuation-token=a%26b", sampleUrl ""] :=
    .intro (.cons (serves_firstPage []) isTruncated_firstPage nextToken?_firstPage .nil)
      (serves_secondPage _) fun htruncated => by
        rw [isTruncated_secondPage] at htruncated
        cases htruncated
  have hwhole :=
    listing_whole_unless_tokenless sampleNetwork sampleBucket "release/linux-x86_64" 2
  refine ⟨(hwhole.1 _ _).mp ?_,
    hwhole.2.2 {} .linuxX86 _ rfl (hreceives.latest? {} .linuxX86 (le_refl 2) keys_samplePages)⟩
  rw [hreceives.listPages (le_refl 2), keys_samplePages, List.nil_append]

/-! ### A page that names its continuation otherwise -/

/-- A page of a listing that goes on, with a marker in the place of a token. -/
def markerPage : String :=
  "<IsTruncated>true</IsTruncated><Key>release/linux-x86_64/1.0.0-e</Key>"
    ++ "<NextMarker>release/linux-x86_64/1.0.0-e</NextMarker>"

def markerNetwork : Network := fun _ _ => .response (pageResponse markerPage)

/-- The one page received says that the listing goes on. Its key is answered as if there were no
other, and a binary is selected from it. -/
theorem listing_stops_truncated :
    Serves markerNetwork sampleBucket "release/linux-x86_64" none [] (sampleUrl "")
        markerPage.toList ∧
      Listing.isTruncated markerPage.toList = true ∧
      listPages markerNetwork sampleBucket "release/linux-x86_64" 1 none [] [] =
        (some (.ok ["release/linux-x86_64/1.0.0-e"]), [sampleUrl ""]) ∧
      (sampleBucket.repository markerNetwork 1).latest? {} .linuxX86 =
        .ok (some ⟨⟨1, 0, 0, none, none⟩, "release/linux-x86_64/1.0.0-e"⟩) := by
  have hserves : Serves markerNetwork sampleBucket "release/linux-x86_64" none [] (sampleUrl "")
      markerPage.toList :=
    ⟨by decide +kernel, rfl, pageResponse markerPage, rfl,
      pageResponse_arrives (by decide +kernel)⟩
  have hreceives : Receives markerNetwork sampleBucket "release/linux-x86_64" none []
      ([] ++ [markerPage.toList]) [sampleUrl ""] :=
    .intro .nil hserves fun _ => by decide +kernel
  have hkeys : ([] ++ [markerPage.toList]).flatMap Listing.keys =
      ["release/linux-x86_64/1.0.0-e"] := by decide +kernel
  refine ⟨hserves, by decide +kernel, ?_, hreceives.latest? {} .linuxX86 (le_refl 1) hkeys⟩
  rw [hreceives.listPages (le_refl 1), hkeys, List.nil_append]

end Bucket

end EngineClient

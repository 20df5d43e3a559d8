import Mathlib
import EngineClient.Bucket
import EngineClient.Proofs.Repository.Selection
import EngineClient.Proofs.Text.Utf8

/-!
# Listings of several pages

A listing asks for page after page, each with the token that the page before it names, and keeps the
keys of them all until a page says that it is the last. A page that cannot be read ends the listing
with nothing kept, and no page after it is asked for.
-/

namespace EngineClient

namespace Bucket

variable {net : Network} {b : Bucket} {folder : String} {token token' next : Option String}
variable {past past' : List Url} {url : Url} {body last : List Char} {bodies : List (List Char)}
variable {found : List String} {pages : Nat} {e : Error}
variable {reply : Except Http.Failure Http.Response}

/-! ## Requests -/

theorem send_requests (net : Network) (address : Except Url.Unusable Url) (past : List Url) :
    (send net address past).2 = past ∨
      ∃ url, address = .ok url ∧ (send net address past).2 = url :: past := by
  rcases address with (_ | _) | url
  · exact .inl rfl
  · exact .inl rfl
  rw [send]
  split
  · refine .inr ⟨url, rfl, ?_⟩
    split
    · rfl
    · split <;> rfl
  · exact .inl rfl

/-- A page that is served for a token: its address is asked for after some other requests, and the
whole body arrives. -/
structure Serves (net : Network) (b : Bucket) (folder : String) (token : Option String)
    (past : List Url) (url : Url) (body : List Char) : Prop where
  address : b.pageAddress folder token = .ok url
  isHttp : url.isHttp = true
  arrives : ∃ r, net past url = .response r ∧ Http.isSuccess r.status = true ∧
    r.isTruncated = false ∧ bodyText r.received = body

private theorem not_interim_of_success {status : Nat} (h : Http.isSuccess status = true) :
    Http.isInterim status = false := by
  simp only [Http.isSuccess, Bool.and_eq_true, decide_eq_true_eq] at h
  simp only [Http.isInterim, Bool.and_eq_false_iff, decide_eq_false_iff_not]
  omega

theorem Serves.pageText (h : Serves net b folder token past url body) :
    ∃ reply, send net (b.pageAddress folder token) past = (reply, url :: past) ∧
      pageText folder reply = .ok body := by
  obtain ⟨r, hnet, hsuccess, hwhole, hbody⟩ := h.arrives
  refine ⟨.ok r, ?_, ?_⟩
  · rw [h.address, send, if_pos h.isHttp, hnet]
    simp only [not_interim_of_success hsuccess, Bool.false_eq_true, if_false]
  · simp only [Bucket.pageText, hsuccess, hwhole, hbody, Bool.not_true, Bool.false_eq_true,
      if_false]

/-! ## Steps of a listing -/

theorem listPages_error (hsend : send net (b.pageAddress folder token) past = (reply, past'))
    (htext : pageText folder reply = .error e) :
    listPages net b folder (pages + 1) token found past = (some (.error e), past') := by
  rw [listPages, hsend]
  simp only [htext]

theorem listPages_last (hserves : Serves net b folder token past url body)
    (hlast : nextPage? body = none) :
    listPages net b folder (pages + 1) token found past =
      (some (.ok (found ++ Listing.keys body)), url :: past) := by
  obtain ⟨reply, hsend, htext⟩ := hserves.pageText
  rw [listPages, hsend]
  simp only [htext, hlast]

theorem listPages_next {next : String} (hserves : Serves net b folder token past url body)
    (hnext : nextPage? body = some next) :
    listPages net b folder (pages + 1) token found past =
      listPages net b folder pages (some next) (found ++ Listing.keys body) (url :: past) := by
  obtain ⟨reply, hsend, htext⟩ := hserves.pageText
  rw [listPages, hsend]
  simp only [htext, hnext]

/-! ## Chains of pages -/

/-- Pages that are served one after the other, each of which says that the listing goes on and names
the token of the page after it. They lead from the request for a first token to the request for a
last one, each after the requests made until then. -/
inductive Chain (net : Network) (b : Bucket) (folder : String) :
    Option String → List Url → List (List Char) → Option String → List Url → Prop
  | nil {token : Option String} {past : List Url} : Chain net b folder token past [] token past
  | cons {token token' : Option String} {next : String} {past past' : List Url} {url : Url}
      {body : List Char} {bodies : List (List Char)}
      (hserves : Serves net b folder token past url body)
      (htruncated : Listing.isTruncated body = true)
      (hnext : Listing.nextToken? body = some next)
      (hrest : Chain net b folder (some next) (url :: past) bodies token' past') :
      Chain net b folder token past (body :: bodies) token' past'

namespace Chain

/-- A listing that has gone through a chain is about to ask for the next page, with the keys of the
chain added to those it had. -/
theorem listPages (h : Chain net b folder token past bodies token' past') :
    Bucket.listPages net b folder (bodies.length + pages) token found past =
      Bucket.listPages net b folder pages token' (found ++ bodies.flatMap Listing.keys) past' := by
  induction h generalizing found with
  | nil => rw [List.length_nil, Nat.zero_add, List.flatMap_nil, List.append_nil]
  | @cons token token' next past past' url body bodies hserves htruncated hnext hrest ih =>
    have hpage : nextPage? body = some next := by rw [nextPage?, if_pos htruncated, hnext]
    rw [List.length_cons, Nat.add_right_comm, listPages_next hserves hpage, ih,
      List.flatMap_cons, List.append_assoc]

private theorem requests (h : Chain net b folder token past bodies token' past') :
    past'.reverse.map .ok ++ [b.pageAddress folder token'] =
      past.reverse.map .ok ++
        (token :: bodies.map Listing.nextToken?).map (b.pageAddress folder) := by
  induction h with
  | nil => rfl
  | cons hserves htruncated hnext hrest ih =>
    simp only [ih, List.map_cons, hnext, hserves.address, List.reverse_cons, List.map_append,
      List.append_assoc]
    rfl

end Chain

/-! ## Whole listings -/

/-- The addresses at which the pages of a listing are asked for: the first without a token, and each
other one with the token of the page before it. -/
def addresses (b : Bucket) (folder : String) (bodies : List (List Char)) :
    List (Except Url.Unusable Url) :=
  (none :: bodies.map Listing.nextToken?).map (b.pageAddress folder)

/-- What becomes of a listing after some of its pages, when the page of a token is next. -/
structure Lists (net : Network) (b : Bucket) (folder : String) (bodies : List (List Char))
    (token : Option String) (past : List Url) : Prop where
  /-- If that page is the last one, the keys of all pages are answered, after one request for
  each, -/
  complete : ∀ url last, Serves net b folder token past url last →
    Listing.isTruncated last = false → ∀ pages, bodies.length < pages →
      ∃ asked, listPages net b folder pages none [] [] =
          (some (.ok ((bodies ++ [last]).flatMap Listing.keys)), asked) ∧
        asked.reverse.map .ok = b.addresses folder bodies
  /-- and of these the first of the highest version is the published binary. -/
  selected : ∀ url last, Serves net b folder token past url last →
    Listing.isTruncated last = false → ∀ pages, bodies.length < pages →
      ∀ fs platform, platform.folder = folder → ∃ found,
        (b.repository net pages).latest? fs platform = .ok found ∧
        Repository.SelectsFirst ((bodies ++ [last]).flatMap Listing.keys) found
  /-- If the request for it fails, is refused or breaks off, there are no keys, and no later page is
  asked for. -/
  failed : ∀ failure past', send net (b.pageAddress folder token) past = (.error failure, past') →
    ∀ pages, bodies.length < pages → listPages net b folder pages none [] [] =
      (some (.error (.fetch (.cannotList folder failure))), past')
  refused : ∀ r past', send net (b.pageAddress folder token) past = (.ok r, past') →
    Http.isSuccess r.status = false → ∀ pages, bodies.length < pages →
      listPages net b folder pages none [] [] =
        (some (.error (.fetch (.refusedListing folder r.status))), past')
  cut : ∀ r past', send net (b.pageAddress folder token) past = (.ok r, past') →
    Http.isSuccess r.status = true → r.isTruncated = true → ∀ pages, bodies.length < pages →
      listPages net b folder pages none [] [] =
        (some (.error (.fetch (.cannotReadListing folder .truncatedBody))), past')
  asked : (send net (b.pageAddress folder token) past).2.reverse.map .ok <+:
    b.addresses folder bodies

private theorem Chain.addresses (h : Chain net b folder none [] bodies token past) :
    past.reverse.map .ok ++ [b.pageAddress folder token] = b.addresses folder bodies := h.requests

/-- A listing goes through the chain of its first pages, whatever it then does. -/
theorem Chain.listPages_from (h : Chain net b folder none [] bodies token past)
    (hpages : bodies.length < pages) :
    ∃ left, Bucket.listPages net b folder pages none [] [] =
      Bucket.listPages net b folder (left + 1) token (bodies.flatMap Listing.keys) past := by
  obtain ⟨left, rfl⟩ := Nat.exists_eq_add_of_lt hpages
  refine ⟨left, ?_⟩
  rw [Nat.add_assoc, h.listPages, List.nil_append]

private theorem Chain.listPages_last (h : Chain net b folder none [] bodies token past)
    (hserves : Serves net b folder token past url last) (hlast : Listing.isTruncated last = false)
    (hpages : bodies.length < pages) :
    Bucket.listPages net b folder pages none [] [] =
      (some (.ok ((bodies ++ [last]).flatMap Listing.keys)), url :: past) := by
  obtain ⟨left, hleft⟩ := h.listPages_from hpages
  have hnone : nextPage? last = none := by
    rw [nextPage?, hlast]
    rfl
  rw [hleft, Bucket.listPages_last hserves hnone, List.flatMap_append, List.flatMap_singleton]

private theorem Chain.listPages_error (h : Chain net b folder none [] bodies token past)
    (hsend : send net (b.pageAddress folder token) past = (reply, past'))
    (htext : pageText folder reply = .error e) (hpages : bodies.length < pages) :
    Bucket.listPages net b folder pages none [] [] = (some (.error e), past') := by
  obtain ⟨left, hleft⟩ := h.listPages_from hpages
  rw [hleft, Bucket.listPages_error hsend htext]

theorem listing_complete (h : Chain net b folder none [] bodies token past) :
    Lists net b folder bodies token past where
  complete url last hserves hlast pages hpages := by
    refine ⟨_, h.listPages_last hserves hlast hpages, ?_⟩
    rw [List.reverse_cons, List.map_append, List.map_singleton, ← hserves.address]
    exact h.addresses
  selected url last hserves hlast pages hpages fs platform hfolder := by
    have hkeys : (b.repository net pages).listKeys fs folder =
        .ok ((bodies ++ [last]).flatMap Listing.keys) := by
      simp only [repository, h.listPages_last hserves hlast hpages]
    refine ⟨_, ?_, Repository.select_selectsFirst _⟩
    rw [Repository.latest?, hfolder, hkeys]
    rfl
  failed failure past' hsend pages hpages := h.listPages_error hsend rfl hpages
  refused r past' hsend hstatus pages hpages := by
    refine h.listPages_error hsend ?_ hpages
    simp only [pageText, hstatus, Bool.not_false, if_true]
  cut r past' hsend hstatus hcut pages hpages := by
    refine h.listPages_error hsend ?_ hpages
    simp only [pageText, hstatus, hcut, Bool.not_true, Bool.false_eq_true, if_false, if_true]
  asked := by
    rw [← h.addresses]
    rcases send_requests net (b.pageAddress folder token) past with hnone | ⟨url, haddress, hone⟩
    · rw [hnone]
      exact List.prefix_append _ _
    · rw [hone, haddress, List.reverse_cons, List.map_append]
      exact List.prefix_refl _

/-! ### A bucket with two pages -/

def sampleBucket : Bucket := atEndpoint "http://h/"

def firstPage : String :=
  "<IsTruncated>true</IsTruncated><Key>release/linux-x86_64/2.0.0-e</Key>"
    ++ "<NextContinuationToken>a&amp;b</NextContinuationToken>"

def secondPage : String :=
  "<Key>release/linux-x86_64/3.0.0-e</Key><IsTruncated>false</IsTruncated>"

def pageResponse (page : String) : Http.Response :=
  { body := bytesOf page, announced := (bytesOf page).length }

theorem pageResponse_arrives {page : String}
    (h : byteOrderMark.isPrefixOf (bytesOf page) = false) :
    Http.isSuccess (pageResponse page).status = true ∧ (pageResponse page).isTruncated = false ∧
      bodyText (pageResponse page).received = page.toList := by
  refine ⟨rfl, decide_eq_false (Nat.lt_irrefl _), ?_⟩
  have hreceived : (pageResponse page).received = bytesOf page := List.take_length
  rw [hreceived, bodyText, h]
  exact Utf8.lossy_encode page.toList

/-- The address of a page of the sample bucket, with the end of its query. -/
def sampleUrl (ending : String) : Url :=
  ⟨"http", "h", "/", some ("list-type=2&prefix=release%2Flinux-x86_64" ++ ending), none⟩

/-- A network that has the first page at its address and the second at that of its token. -/
def sampleNetwork : Network := fun _ url =>
  if url = sampleUrl "" then .response (pageResponse firstPage)
  else if url = sampleUrl "&continuation-token=a%26b" then .response (pageResponse secondPage)
  else .dropped

theorem serves_firstPage (past : List Url) :
    Serves sampleNetwork sampleBucket "release/linux-x86_64" none past (sampleUrl "")
      firstPage.toList where
  address := by decide +kernel
  isHttp := by decide
  arrives := ⟨pageResponse firstPage, if_pos rfl, pageResponse_arrives (by decide +kernel)⟩

theorem serves_secondPage (past : List Url) :
    Serves sampleNetwork sampleBucket "release/linux-x86_64" (some "a&b") past
      (sampleUrl "&continuation-token=a%26b") secondPage.toList where
  address := by decide +kernel
  isHttp := by decide
  arrives := ⟨pageResponse secondPage, (if_neg (by decide +kernel)).trans (if_pos rfl),
    pageResponse_arrives (by decide +kernel)⟩

theorem nextToken?_firstPage : Listing.nextToken? firstPage.toList = some "a&b" := by
  decide +kernel

theorem isTruncated_firstPage : Listing.isTruncated firstPage.toList = true := by
  decide +kernel

theorem isTruncated_secondPage : Listing.isTruncated secondPage.toList = false := by
  decide +kernel

theorem keys_samplePages : ([firstPage.toList] ++ [secondPage.toList]).flatMap Listing.keys =
    ["release/linux-x86_64/2.0.0-e", "release/linux-x86_64/3.0.0-e"] := by
  decide +kernel

theorem listing_complete_two :
    (∃ asked, listPages sampleNetwork sampleBucket "release/linux-x86_64" 2 none [] [] =
        (some (.ok ["release/linux-x86_64/2.0.0-e", "release/linux-x86_64/3.0.0-e"]), asked) ∧
      asked.reverse.map .ok = [none, some "a&b"].map
        (sampleBucket.pageAddress "release/linux-x86_64")) ∧
      ∃ found, (sampleBucket.repository sampleNetwork 2).latest? { entries := [] } .linuxX86 =
          .ok found ∧
        Repository.SelectsFirst
          ["release/linux-x86_64/2.0.0-e", "release/linux-x86_64/3.0.0-e"] found := by
  have hlists := listing_complete
    (.cons (serves_firstPage []) isTruncated_firstPage nextToken?_firstPage .nil)
  have haddresses : sampleBucket.addresses "release/linux-x86_64" [firstPage.toList] =
      [none, some "a&b"].map (sampleBucket.pageAddress "release/linux-x86_64") := by
    simp only [addresses, List.map_cons, List.map_nil, nextToken?_firstPage]
  have hsecond := serves_secondPage [sampleUrl ""]
  rw [← keys_samplePages, ← haddresses]
  exact ⟨hlists.complete _ _ hsecond isTruncated_secondPage 2 (by decide),
    hlists.selected _ _ hsecond isTruncated_secondPage 2 (by decide) { entries := [] } .linuxX86
      rfl⟩

end Bucket

end EngineClient

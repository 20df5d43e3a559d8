import Mathlib
import EngineClient.Proofs.Bucket.Pages

/-!
# Listings that end

A listing knows no bound: it goes on as long as each page names another. On a server whose pages
depend on their tokens alone, and of which there are finitely many, it asks for at most one page more
than they name tokens, unless it comes to a token for the second time. Then all that has followed it
follows again, and the listing goes round for ever.
-/

namespace EngineClient

namespace Bucket

variable {net : Network} {b : Bucket} {folder : String} {token token' : Option String}
variable {past past' : List Url} {url : Url} {body : List Char} {bodies : List (List Char)}
variable {next : String}

/-! ## Servers -/

/-- The reply to the request for a page does not depend on the requests before it. -/
def RepliesByToken (net : Network) (b : Bucket) (folder : String) : Prop :=
  ∀ token url, b.pageAddress folder token = .ok url → ∀ past past', net past url = net past' url

/-- The pages that are served for any tokens. -/
def servedPages (net : Network) (b : Bucket) (folder : String) : Set (List Char) :=
  {body | ∃ token past url, Serves net b folder token past url body}

/-- The tokens that these pages name. -/
def namedTokens (net : Network) (b : Bucket) (folder : String) : Set String :=
  {next | ∃ body ∈ servedPages net b folder, Listing.nextToken? body = some next}

private theorem namedTokens_finite (h : (servedPages net b folder).Finite) :
    (namedTokens net b folder).Finite := by
  apply ((h.image Listing.nextToken?).preimage (Option.some_injective String).injOn).subset
  rintro next ⟨body, hbody, hnext⟩
  exact ⟨body, hbody, hnext⟩

private theorem Serves.after_any (h : Serves net b folder token past url body)
    (hreplies : RepliesByToken net b folder) (past' : List Url) :
    Serves net b folder token past' url body where
  address := h.address
  isHttp := h.isHttp
  arrives := by
    rw [hreplies token url h.address past' past]
    exact h.arrives

private theorem send_eq_ok {address : Except Url.Unusable Url} {r : Http.Response}
    (h : (send net address past).1 = .ok r) :
    ∃ url, address = .ok url ∧ url.isHttp = true ∧ net past url = .response r := by
  rcases address with (_ | _) | url
  · cases h
  · cases h
  rw [send] at h
  split at h
  · next hhttp =>
    cases hreply : net past url with
    | dropped =>
      rw [hreply] at h
      cases h
    | response r' =>
      simp only [hreply] at h
      split at h
      · cases h
      · exact ⟨url, rfl, hhttp, by rw [hreply, Except.ok.inj h]⟩
  · cases h

private theorem pageText_eq_ok {reply : Except Http.Failure Http.Response}
    (h : pageText folder reply = .ok body) :
    ∃ r, reply = .ok r ∧ Http.isSuccess r.status = true ∧ r.isTruncated = false ∧
      bodyText r.received = body := by
  rcases reply with e | r
  · cases h
  rw [pageText] at h
  split at h
  · cases h
  · next hsuccess =>
    split at h
    · cases h
    · next hwhole =>
      exact ⟨r, rfl, by simpa using hsuccess, by simpa using hwhole, Except.ok.inj h⟩

theorem serves_of_pageText
    (h : pageText folder (send net (b.pageAddress folder token) past).1 = .ok body) :
    ∃ url, Serves net b folder token past url body := by
  obtain ⟨r, hreply, hsuccess, hwhole, hbody⟩ := pageText_eq_ok h
  obtain ⟨url, haddress, hhttp, harrives⟩ := send_eq_ok hreply
  exact ⟨url, haddress, hhttp, r, harrives, hsuccess, hwhole, hbody⟩

private theorem Serves.unique {url' : Url} {body' : List Char}
    (h : Serves net b folder token past url body)
    (h' : Serves net b folder token past url' body') : body = body' := by
  obtain ⟨reply, hsend, htext⟩ := h.pageText
  obtain ⟨reply', hsend', htext'⟩ := h'.pageText
  rw [hsend, Prod.mk.injEq] at hsend'
  rw [← hsend'.1, htext] at htext'
  exact Except.ok.inj htext'

/-! ## Steps -/

/-- The page that is served for a token says that the listing goes on with another. -/
structure Names (net : Network) (b : Bucket) (folder : String) (token : Option String)
    (past : List Url) (url : Url) (body : List Char) (next : String) : Prop where
  serves : Serves net b folder token past url body
  truncated : Listing.isTruncated body = true
  next : Listing.nextToken? body = some next

/-- A listing that is to ask for the page of a token comes to its end with that request. -/
def Ends (net : Network) (b : Bucket) (folder : String) (token : Option String)
    (past : List Url) : Prop :=
  ∃ past', past'.length ≤ past.length + 1 ∧ ∀ found, ∃ result, ∀ pages,
    listPages net b folder (pages + 1) token found past = (some result, past')

private theorem Names.nextPage? (h : Names net b folder token past url body next) :
    nextPage? body = some next := by
  rw [Bucket.nextPage?, if_pos h.truncated, h.next]

theorem Serves.names (h : Serves net b folder token past url body)
    (hpage : Bucket.nextPage? body = some next) : Names net b folder token past url body next := by
  rw [Bucket.nextPage?] at hpage
  split at hpage
  · next htruncated => exact ⟨h, htruncated, hpage⟩
  · cases hpage

private theorem names_or_ends (net : Network) (b : Bucket) (folder : String) (token : Option String)
    (past : List Url) :
    (∃ url body next, Names net b folder token past url body next) ∨
      Ends net b folder token past := by
  rcases htext : pageText folder (send net (b.pageAddress folder token) past).1 with e | body
  · refine .inr ⟨(send net (b.pageAddress folder token) past).2, ?_, fun found =>
      ⟨.error e, fun pages => listPages_error rfl htext⟩⟩
    rcases send_requests net (b.pageAddress folder token) past with hsent | ⟨url, -, hsent⟩
    · rw [hsent]
      exact Nat.le_succ _
    · rw [hsent, List.length_cons]
  · obtain ⟨url, hserves⟩ := serves_of_pageText htext
    cases hpage : nextPage? body with
    | none =>
      exact .inr ⟨url :: past, le_rfl, fun found => ⟨_, fun pages => listPages_last hserves hpage⟩⟩
    | some next => exact .inl ⟨url, body, next, hserves.names hpage⟩

/-! ## Chains -/

namespace Chain

private theorem snoc (h : Chain net b folder token past bodies token' past')
    (hnames : Names net b folder token' past' url body next) :
    Chain net b folder token past (bodies ++ [body]) (some next) (url :: past') := by
  induction h with
  | nil => exact .cons hnames.serves hnames.truncated hnames.next .nil
  | cons hserves htruncated hnext hrest ih => exact .cons hserves htruncated hnext (ih hnames)

theorem length_past (h : Chain net b folder token past bodies token' past') :
    past'.length = past.length + bodies.length := by
  induction h with
  | nil => rfl
  | cons hserves htruncated hnext hrest ih =>
    rw [ih, List.length_cons, List.length_cons, Nat.add_right_comm, Nat.add_assoc]

private theorem mem_namedTokens (h : Chain net b folder token past bodies token' past')
    {name : Option String} (hname : name ∈ bodies.map Listing.nextToken?) :
    name ∈ some '' namedTokens net b folder := by
  induction h with
  | nil => cases hname
  | @cons token token' next past past' url body bodies hserves htruncated hnext hrest ih =>
    rcases List.mem_cons.mp hname with rfl | hname
    · exact ⟨next, ⟨body, ⟨token, past, url, hserves⟩, hnext⟩, hnext.symm⟩
    · exact ih hname

private theorem names_getElem? (h : Chain net b folder token past bodies token' past') {k : Nat}
    {asked : Option String} (hk : k < bodies.length)
    (hasked : (token :: bodies.map Listing.nextToken?)[k]? = some asked) :
    ∃ past url body next, Names net b folder asked past url body next ∧
      (token :: bodies.map Listing.nextToken?)[k + 1]? = some (some next) := by
  induction h generalizing k with
  | nil => exact absurd hk (Nat.not_lt_zero k)
  | @cons token token' next past past' url body bodies hserves htruncated hnext hrest ih =>
    rw [List.map_cons, hnext] at hasked ⊢
    cases k with
    | zero =>
      obtain rfl := Option.some.inj hasked
      exact ⟨past, url, body, next, ⟨hserves, htruncated, hnext⟩, rfl⟩
    | succ k => exact ih (Nat.lt_of_succ_lt_succ hk) hasked

/-- As many pages as different tokens are a bound for a chain in which no token is named twice. -/
theorem length_le (h : Chain net b folder token past bodies token' past')
    (hfinite : (namedTokens net b folder).Finite)
    (hnodup : (bodies.map Listing.nextToken?).Nodup) :
    bodies.length ≤ (namedTokens net b folder).ncard := by
  have hsubset : ((bodies.map Listing.nextToken?).toFinset : Set (Option String)) ⊆
      some '' namedTokens net b folder :=
    fun name hname => h.mem_namedTokens (List.mem_toFinset.mp hname)
  calc bodies.length = (bodies.map Listing.nextToken?).toFinset.card := by
        rw [List.toFinset_card_of_nodup hnodup, List.length_map]
    _ = ((bodies.map Listing.nextToken?).toFinset : Set (Option String)).ncard :=
        (Set.ncard_coe_finset _).symm
    _ ≤ (some '' namedTokens net b folder).ncard :=
        Set.ncard_le_ncard hsubset (hfinite.image some)
    _ ≤ (namedTokens net b folder).ncard := Set.ncard_image_le hfinite

end Chain

/-- There is a chain of any number of pages, unless a shorter one comes to its end. -/
theorem chain_or_ends (net : Network) (b : Bucket) (folder : String) (count : Nat) :
    (∃ bodies token past, Chain net b folder none [] bodies token past ∧
        bodies.length = count) ∨
      ∃ bodies token past, Chain net b folder none [] bodies token past ∧
        bodies.length < count ∧ Ends net b folder token past := by
  induction count with
  | zero => exact .inl ⟨[], none, [], .nil, rfl⟩
  | succ count ih =>
    rcases ih with ⟨bodies, token, past, hchain, hlength⟩ | ⟨bodies, token, past, hchain, hlt, hends⟩
    · rcases names_or_ends net b folder token past with ⟨url, body, next, hnames⟩ | hends
      · refine .inl ⟨_, _, _, hchain.snoc hnames, ?_⟩
        rw [List.length_append, hlength]
        rfl
      · exact .inr ⟨bodies, token, past, hchain, hlength ▸ Nat.lt_succ_self _, hends⟩
    · exact .inr ⟨bodies, token, past, hchain, Nat.lt_succ_of_lt hlt, hends⟩

/-! ## Tokens that come back -/

/-- Two of the pages that a listing comes to name the same token. -/
def Recurs (net : Network) (b : Bucket) (folder : String) : Prop :=
  ∃ bodies token past, Chain net b folder none [] bodies token past ∧
    ¬(bodies.map Listing.nextToken?).Nodup

/-- A set of tokens whose pages all name tokens of the set. -/
def Circle (net : Network) (b : Bucket) (folder : String) (tokens : Set (Option String)) : Prop :=
  ∀ token ∈ tokens, ∃ past url body next, Names net b folder token past url body next ∧
    some next ∈ tokens

/-- A listing does not leave a circle, whatever number of pages it has asked for. -/
theorem Circle.listPages {tokens : Set (Option String)} (h : Circle net b folder tokens)
    (hreplies : RepliesByToken net b folder) (htoken : token ∈ tokens) (pages : Nat)
    (found : List String) (past : List Url) :
    ∃ asked, Bucket.listPages net b folder pages token found past = (none, asked) ∧
      asked.length = past.length + pages := by
  induction pages generalizing token found past with
  | zero => exact ⟨past, rfl, rfl⟩
  | succ pages ih =>
    obtain ⟨_, url, body, next, hnames, hnext⟩ := h token htoken
    obtain ⟨asked, hlist, hlength⟩ := ih hnext (found ++ Listing.keys body) (url :: past)
    refine ⟨asked, ?_, ?_⟩
    · rw [listPages_next (hnames.serves.after_any hreplies past) hnames.nextPage?, hlist]
    · rw [hlength, List.length_cons, Nat.add_right_comm, Nat.add_assoc]

private theorem Recurs.circle (h : Recurs net b folder) :
    ∃ tokens, Circle net b folder tokens ∧ none ∈ tokens := by
  obtain ⟨bodies, token, past, hchain, hnodup⟩ := h
  rw [List.nodup_iff_getElem?_ne_getElem?] at hnodup
  push Not at hnodup
  obtain ⟨i, j, hij, hj, hsame⟩ := hnodup
  rw [List.length_map] at hj
  refine ⟨{asked | ∃ k ≤ j, (none :: bodies.map Listing.nextToken?)[k]? = some asked}, ?_,
    0, Nat.zero_le j, rfl⟩
  rintro asked ⟨k, hk, hasked⟩
  obtain ⟨past, url, body, next, hnames, hnext⟩ := hchain.names_getElem? (hk.trans_lt hj) hasked
  refine ⟨past, url, body, next, hnames, ?_⟩
  rcases hk.lt_or_eq with hlt | rfl
  · exact ⟨k + 1, hlt, hnext⟩
  · exact ⟨i + 1, hij, by rw [List.getElem?_cons_succ, hsame, ← List.getElem?_cons_succ, hnext]⟩

/-! ## Whole listings -/

private theorem listPages_of_not_recurs (hfinite : (namedTokens net b folder).Finite)
    (hrecurs : ¬Recurs net b folder) :
    ∃ result asked, asked.length ≤ (namedTokens net b folder).ncard + 1 ∧
      ∀ pages, (namedTokens net b folder).ncard < pages →
        listPages net b folder pages none [] [] = (some result, asked) := by
  have hbound : ∀ {bodies token past}, Chain net b folder none [] bodies token past →
      bodies.length ≤ (namedTokens net b folder).ncard := by
    intro bodies token past hchain
    refine hchain.length_le hfinite ?_
    by_contra hnodup
    exact hrecurs ⟨bodies, token, past, hchain, hnodup⟩
  rcases chain_or_ends net b folder ((namedTokens net b folder).ncard + 1) with
    ⟨bodies, token, past, hchain, hlength⟩ | ⟨bodies, token, past, hchain, -, hends⟩
  · exact absurd (hbound hchain) (by omega)
  · obtain ⟨past', hlength, hresult⟩ := hends
    obtain ⟨result, hlist⟩ := hresult (bodies.flatMap Listing.keys)
    have hpast := hchain.length_past
    have hle := hbound hchain
    refine ⟨result, past', ?_, fun pages hpages => ?_⟩
    · rw [List.length_nil] at hpast
      omega
    · obtain ⟨left, hleft⟩ := hchain.listPages_from (hle.trans_lt hpages)
      rw [hleft, hlist left]

/-- On a server that replies to a token always in the same way, and that serves finitely many pages,
a listing in which no token comes back ends, with keys or an error, after at most one request more
than the pages name tokens. If a token comes back, then the listing never ends: whatever number of
requests is allowed, it has made them all and wants to make another. -/
theorem listing_ends_unless_recurs (hreplies : RepliesByToken net b folder)
    (hfinite : (servedPages net b folder).Finite) :
    (¬Recurs net b folder →
      ∃ result asked, asked.length ≤ (namedTokens net b folder).ncard + 1 ∧
        ∀ pages, (namedTokens net b folder).ncard < pages →
          listPages net b folder pages none [] [] = (some result, asked)) ∧
    (Recurs net b folder → ∀ pages, ∃ asked,
      listPages net b folder pages none [] [] = (none, asked) ∧ asked.length = pages) := by
  refine ⟨listPages_of_not_recurs (namedTokens_finite hfinite), fun hrecurs pages => ?_⟩
  obtain ⟨tokens, hcircle, hnone⟩ := hrecurs.circle
  obtain ⟨asked, hlist, hlength⟩ := hcircle.listPages hreplies hnone pages [] []
  exact ⟨asked, hlist, by rw [hlength, List.length_nil, Nat.zero_add]⟩

private theorem servedPages_sampleNetwork :
    servedPages sampleNetwork sampleBucket "release/linux-x86_64" ⊆
    {firstPage.toList, secondPage.toList} := by
  rintro body ⟨token, past, url, -, -, r, hreply, -, -, rfl⟩
  simp only [sampleNetwork] at hreply
  split at hreply
  · cases hreply
    exact .inl (pageResponse_arrives (by decide +kernel)).2.2
  split at hreply
  · cases hreply
    exact .inr (pageResponse_arrives (by decide +kernel)).2.2
  · cases hreply

private theorem nextToken?_secondPage : Listing.nextToken? secondPage.toList = none := by
  decide +kernel

private theorem namedTokens_sampleNetwork :
    namedTokens sampleNetwork sampleBucket "release/linux-x86_64" = {"a&b"} := by
  ext next
  constructor
  · rintro ⟨body, hbody, hnext⟩
    rcases servedPages_sampleNetwork hbody with hfirst | hsecond
    · rw [hfirst, nextToken?_firstPage] at hnext
      exact (Option.some.inj hnext).symm
    · rw [Set.mem_singleton_iff.mp hsecond, nextToken?_secondPage] at hnext
      cases hnext
  · rintro rfl
    exact ⟨_, ⟨_, _, _, serves_firstPage []⟩, nextToken?_firstPage⟩

theorem listing_ends_unless_recurs_two : ∃ result asked, asked.length ≤ 2 ∧ ∀ pages, 1 < pages →
    listPages sampleNetwork sampleBucket "release/linux-x86_64" pages none [] [] =
      (some result, asked) := by
  have hends := (listing_ends_unless_recurs (fun _ _ _ _ _ => rfl)
    ((Set.toFinite _).subset servedPages_sampleNetwork)).1
  rw [namedTokens_sampleNetwork, Set.ncard_singleton] at hends
  refine hends ?_
  rintro ⟨bodies, token, past, hchain, hnodup⟩
  apply hnodup
  cases hchain with
  | nil => exact List.nodup_nil
  | cons hserves htruncated hnext hrest =>
    rw [hserves.unique (serves_firstPage []), nextToken?_firstPage] at hnext
    obtain rfl := Option.some.inj hnext
    cases hrest with
    | nil => exact List.nodup_singleton _
    | cons hserves htruncated hnext hrest =>
      rw [hserves.unique (serves_secondPage _), isTruncated_secondPage] at htruncated
      cases htruncated

/-! ### A page that names its own token -/

def circlePage : String :=
  "<IsTruncated>true</IsTruncated><Key>release/linux-x86_64/1.0.0-e</Key>"
    ++ "<NextContinuationToken>a</NextContinuationToken>"

/-- A network that has the same page at all addresses. -/
def circleNetwork : Network := fun _ _ => .response (pageResponse circlePage)

private theorem circlePage_arrives :
    Http.isSuccess (pageResponse circlePage).status = true ∧
      (pageResponse circlePage).isTruncated = false ∧
      bodyText (pageResponse circlePage).received = circlePage.toList :=
  pageResponse_arrives (by decide +kernel)

private theorem names_circlePage (token : Option String) (ending : String)
    (h : sampleBucket.pageAddress "release/linux-x86_64" token = .ok (sampleUrl ending)) :
    Names circleNetwork sampleBucket "release/linux-x86_64" token [] (sampleUrl ending)
      circlePage.toList "a" where
  serves := ⟨h, rfl, pageResponse circlePage, rfl, circlePage_arrives⟩
  truncated := by decide +kernel
  next := by decide +kernel

/-- A server with one page, which names one token, is asked for it without end. -/
theorem listing_circles :
    RepliesByToken circleNetwork sampleBucket "release/linux-x86_64" ∧
      servedPages circleNetwork sampleBucket "release/linux-x86_64" = {circlePage.toList} ∧
      ∀ pages, ∃ asked,
        listPages circleNetwork sampleBucket "release/linux-x86_64" pages none [] [] =
          (none, asked) ∧ asked.length = pages := by
  have hreplies : RepliesByToken circleNetwork sampleBucket "release/linux-x86_64" :=
    fun _ _ _ _ _ => rfl
  have hfirst := names_circlePage none "" (by decide +kernel)
  have hagain := names_circlePage (some "a") "&continuation-token=a" (by decide +kernel)
  have hcircle : Circle circleNetwork sampleBucket "release/linux-x86_64" {none, some "a"} := by
    rintro token (rfl | rfl)
    · exact ⟨_, _, _, _, hfirst, .inr rfl⟩
    · exact ⟨_, _, _, _, hagain, .inr rfl⟩
  refine ⟨hreplies, ?_, fun pages => ?_⟩
  · ext body
    constructor
    · rintro ⟨token, past, url, -, -, r, hreply, -, -, rfl⟩
      cases hreply
      exact circlePage_arrives.2.2
    · intro hbody
      rw [Set.mem_singleton_iff.mp hbody]
      exact ⟨_, _, _, hfirst.serves⟩
  · obtain ⟨asked, hlist, hlength⟩ := hcircle.listPages hreplies (.inl rfl) pages [] []
    exact ⟨asked, hlist, by rw [hlength, List.length_nil, Nat.zero_add]⟩

end Bucket

end EngineClient

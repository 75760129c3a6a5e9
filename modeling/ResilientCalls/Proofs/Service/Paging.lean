import ResilientCalls.Proofs.Numeric.Digits
import ResilientCalls.Proofs.Service.Answering
/-!
# Histories read page by page

A reader asks for the first page of a history without a token, and for
every further page with the token that came with the page before. A token
is the number of events that stand before its page, so what has been read
up to a bookmark is that many events from the beginning of the history, and
stays so while the history grows (`Paging.marks`). So no event is lost or
repeated, however long the pages are and whatever happens to the service
between them; and pages of `p` events end a history of `n` events, to
which nothing is added meanwhile, after `n / p` pages, rounded up.
-/

namespace ResilientCalls

/-! ## Tokens -/

/-- **A count is read back from its digits,** if it does not exceed the
limit. -/
theorem Text.readCount?_toString {limit n : Nat} (h : n ≤ limit) :
    readCount? limit (toString n).toList = some n := by
  have hchars : (toString n).toList = Nat.toDigits 10 n := Nat.toList_repr
  have hne : (Nat.toDigits 10 n).isEmpty = false := by
    rw [List.isEmpty_eq_false_iff]
    exact Nat.toDigits_ne_nil
  have hall : (Nat.toDigits 10 n).all Char.isDigit = true :=
    List.all_eq_true.2 fun c hc => isDigit_of_mem_toDigits hc
  have hplus : withoutPlus (Nat.toDigits 10 n) = Nat.toDigits 10 n := by
    unfold withoutPlus
    split
    · next rest heq =>
      have hdigit : '+'.isDigit = true := isDigit_of_mem_toDigits (n := n) (by simp [heq])
      exact absurd hdigit (by decide)
    · rfl
  simp only [readCount?, hchars, hplus, hne, hall, digitsValue_toDigits, if_pos h]
  rfl

namespace Store

theorem pageStart_pageToken {n : Nat} (h : n ≤ maxCount64) :
    pageStart (some (pageToken n)) = n := by
  simp only [pageStart, pageToken, Option.bind_some, Text.readCount?_toString h,
    Option.getD_some]

/-- Where the page that starts at an event stops. -/
def pageStop (history : List HistoryEvent) (start size : Nat) : Nat :=
  min (start + if size = 0 then history.length else size) history.length

theorem page_eq (history : List HistoryEvent) (start size : Nat) :
    page history start size =
      ⟨(history.take (pageStop history start size)).drop start,
        if pageStop history start size < history.length then
          some (pageToken (pageStop history start size)) else none⟩ := rfl

/-- **A page goes on where the events before it end.** -/
theorem take_append_page {history : List HistoryEvent} {start : Nat}
    (h : start ≤ history.length) (size : Nat) :
    history.take start ++ (page history start size).events =
      history.take (pageStop history start size) := by
  have hle : start ≤ pageStop history start size := by
    unfold pageStop
    omega
  have hbefore : history.take start = (history.take (pageStop history start size)).take start := by
    rw [List.take_take, Nat.min_eq_left hle]
  rw [page_eq, hbefore, List.take_append_drop]

end Store

/-! ## Readers -/

/-- How far a reader has come: it has not begun, it has the token of the
next page, or it has the last page. -/
inductive Bookmark where
  | unopened
  | next (token : String)
  | finished

namespace Bookmark

/-- The token to ask with for the page at a bookmark; there is no page
after the last. -/
def token? : Bookmark → Option (Option String)
  | .unopened => some none
  | .next token => some (some token)
  | .finished => none

/-- The bookmark behind a page, by the token that came with it. -/
def after : Option String → Bookmark
  | some token => .next token
  | none => .finished

/-- The last of `total` pages is the `k`-th page, which lies before the
bookmark; or that many pages are not all of them. -/
def EndsAt (k total : Nat) : Bookmark → Prop
  | .unopened | .next _ => k < total
  | .finished => k = total

/-- What has been read up to a bookmark in a history. -/
def Marks (history read : List HistoryEvent) : Bookmark → Prop
  | .unopened => read = []
  | .next token => ∃ n ≤ history.length, token = Store.pageToken n ∧ read = history.take n
  | .finished => read <+: history

variable {mark : Bookmark} {history later read : List HistoryEvent}

/-- A bookmark stays where it is when events are added. -/
theorem Marks.mono (h : mark.Marks history read) (hlater : history <+: later) :
    mark.Marks later read := by
  cases mark with
  | unopened => exact h
  | next token =>
    obtain ⟨n, hn, htoken, hread⟩ := h
    refine ⟨n, Nat.le_trans hn hlater.length_le, htoken, ?_⟩
    obtain ⟨added, rfl⟩ := hlater
    rw [hread, List.take_append_of_le_length hn]
  | finished => exact h.trans hlater

theorem Marks.isPrefix (h : mark.Marks history read) : read <+: history := by
  cases mark with
  | unopened =>
    rw [show read = [] from h]
    exact List.nil_prefix
  | next token =>
    obtain ⟨n, -, -, rfl⟩ := h
    exact List.take_prefix n history
  | finished => exact h

/-- The page at a bookmark starts behind what has been read. -/
theorem Marks.exists_start (h : mark.Marks history read) (hfits : history.length ≤ maxCount64)
    {token : Option String} (htoken : mark.token? = some token) :
    Store.pageStart token ≤ history.length ∧ read = history.take (Store.pageStart token) := by
  cases mark with
  | unopened =>
    obtain rfl := Option.some.inj htoken
    exact ⟨Nat.zero_le _, h⟩
  | next t =>
    obtain rfl := Option.some.inj htoken
    obtain ⟨n, hn, rfl, hread⟩ := h
    rw [Store.pageStart_pageToken (Nat.le_trans hn hfits)]
    exact ⟨hn, hread⟩
  | finished => cases htoken

end Bookmark

/-- A page as it was asked for and answered. -/
structure PageRead where
  size : Nat
  events : List HistoryEvent

/-- **The history of a workflow, read page by page** since a state `s` of
the service: every page is asked for with the token of the page before,
and anything may happen to the service in between, calls of the reader
that fail included. -/
inductive Paging (id : String) (s : Store) : List PageRead → Bookmark → Store → Prop
  | opened : Paging id s [] .unopened s
  | meanwhile {pages : List PageRead} {mark : Bookmark} {s' : Store}
      (before : Paging id s pages mark s') (e : StoreEvent) : Paging id s pages mark (e.apply s')
  | turned {pages : List PageRead} {mark : Bookmark} {s' : Store} (r : HistoryRequest)
      (a : HistoryAnswer) (e : StoreEvent) (before : Paging id s pages mark s')
      (hid : r.execution.workflowId = id) (htoken : mark.token? = some r.nextPageToken)
      (hanswer : e.answered? s' = some (.history r, .ok (.history a))) :
      Paging id s (pages ++ [⟨r.maximumPageSize, a.events⟩]) (.after a.nextPageToken) (e.apply s')

namespace Paging

open Store

variable {id : String} {s s' : Store} {pages : List PageRead} {mark : Bookmark} {w : Workflow}

/-- The events of some pages. -/
def eventsOf (pages : List PageRead) : List HistoryEvent := pages.flatMap PageRead.events

/-- A page that is answered is the page of its workflow, which stays as it
is. -/
theorem exists_page {r : HistoryRequest} {a : HistoryAnswer} {e : StoreEvent}
    (h : e.answered? s = some (.history r, .ok (.history a))) :
    ∃ w, s.workflow? r.execution.workflowId = some w ∧ e.apply s = s ∧
      a = page w.history (pageStart r.nextPageToken) r.maximumPageSize := by
  have hserve := serve_of_answered h
  simp only [serve, readHistory] at hserve
  split at hserve
  · cases hserve
  · next w hw =>
    obtain ⟨hanswer, hstore⟩ := Prod.mk.inj hserve
    cases hanswer
    exact ⟨w, hw, hstore.symm, rfl⟩

theorem continues (h : Paging id s pages mark s') : s.Continues s' := by
  induction h with
  | opened => exact .of_workflows rfl
  | meanwhile before e ih => exact ih.trans (apply_continues _ e)
  | turned r a e before hid htoken hanswer ih => exact ih.trans (apply_continues _ e)

/-- Of a workflow that is not stored nothing has been read. -/
theorem unopened_of_not_stored (h : Paging id s pages mark s') (hnone : s'.workflow? id = none) :
    pages = [] ∧ mark = .unopened := by
  induction h with
  | opened => exact ⟨rfl, rfl⟩
  | @meanwhile pages mark s' before e ih =>
    cases hstored : s'.workflow? id with
    | none => exact ih hstored
    | some w =>
      obtain ⟨w', hw', -⟩ := apply_continues s' e id w hstored
      rw [hnone] at hw'
      cases hw'
  | turned r a e before hid htoken hanswer ih =>
    obtain ⟨w, hw, hsame, -⟩ := exists_page hanswer
    rw [hsame, ← hid, hw] at hnone
    cases hnone

/-- **A page is turned** from one bookmark to the next. -/
theorem marks_after {history read : List HistoryEvent} (h : mark.Marks history read)
    (hfits : history.length ≤ maxCount64) {token : Option String}
    (htoken : mark.token? = some token) (size : Nat) :
    let a := page history (pageStart token) size
    (Bookmark.after a.nextPageToken).Marks history (read ++ a.events) ∧
      (a.nextPageToken = none → read ++ a.events = history) := by
  intro a
  obtain ⟨hstart, hread⟩ := h.exists_start hfits htoken
  have hevents : read ++ a.events = history.take (pageStop history (pageStart token) size) := by
    rw [hread, take_append_page hstart]
  have hnext : a.nextPageToken =
      if pageStop history (pageStart token) size < history.length then
        some (pageToken (pageStop history (pageStart token) size)) else none := rfl
  rw [hevents, hnext]
  split
  · next hlt => exact ⟨⟨_, Nat.le_of_lt hlt, rfl, rfl⟩, nofun⟩
  · next hge =>
    rw [List.take_of_length_le (Nat.le_of_not_lt hge)]
    exact ⟨List.prefix_refl history, fun _ => rfl⟩

/-- **What has been read is what stands before the bookmark,** at any
time. -/
theorem marks (h : Paging id s pages mark s') (hw : s'.workflow? id = some w)
    (hfits : w.history.length ≤ maxCount64) : mark.Marks w.history (eventsOf pages) := by
  induction h generalizing w with
  | opened => rfl
  | @meanwhile pages mark s' before e ih =>
    cases hstored : s'.workflow? id with
    | none =>
      obtain ⟨rfl, rfl⟩ := before.unopened_of_not_stored hstored
      rfl
    | some earlier =>
      obtain ⟨w', hw', hlater⟩ := apply_continues s' e id earlier hstored
      obtain rfl : w' = w := Option.some.inj (hw'.symm.trans hw)
      exact (ih hstored (Nat.le_trans hlater.history.length_le hfits)).mono hlater.history
  | turned r a e before hid htoken hanswer ih =>
    obtain ⟨stored, hstored, hsame, rfl⟩ := exists_page hanswer
    rw [hid] at hstored
    rw [hsame, hstored, Option.some.injEq] at hw
    subst hw
    have hturned := (marks_after (ih hstored hfits) hfits htoken r.maximumPageSize).1
    simpa [eventsOf] using hturned

/-! ## How many pages -/

/-- Of a history of `n` events, `k` pages of `p` events each have been read:
all of them full, and more is to come; or the last one ends the history. -/
def Counts (n p k read : Nat) : Bookmark → Prop
  | .unopened | .next _ => read = p * k ∧ read < n
  | .finished => 0 < k ∧ p * (k - 1) < n ∧ n ≤ p * k

/-- **A history is read to its end after `n / p` pages,** rounded up, and
not before. -/
theorem Counts.endsAt {n p k read : Nat} (hp : 0 < p) (h : Counts n p k read mark) :
    mark.EndsAt k ((n + p - 1) / p) := by
  have hbelow : ∀ {m}, p * m < n → m < (n + p - 1) / p := fun {m} hm => by
    rw [Nat.lt_iff_add_one_le, Nat.le_div_iff_mul_le hp, Nat.add_mul, Nat.one_mul, Nat.mul_comm]
    omega
  cases mark with
  | unopened => exact hbelow (h.1 ▸ h.2)
  | next token => exact hbelow (h.1 ▸ h.2)
  | finished =>
    obtain ⟨hpos, hlt, hle⟩ := h
    have hlow := hbelow hlt
    have hhigh : (n + p - 1) / p < k + 1 := by
      rw [Nat.div_lt_iff_lt_mul hp, Nat.add_mul, Nat.one_mul, Nat.mul_comm k p]
      omega
    show k = (n + p - 1) / p
    omega

/-- One page more is counted. -/
theorem Counts.turn {history : List HistoryEvent} {p k start : Nat} (hp : 0 < p)
    (hstart : start = p * k) (hlt : start < history.length) :
    let a := page history start p
    Counts history.length p (k + 1) (start + a.events.length) (.after a.nextPageToken) := by
  intro a
  have hstop : pageStop history start p = min (p * (k + 1)) history.length := by
    rw [pageStop, if_neg (Nat.ne_of_gt hp), hstart, Nat.mul_succ]
  have hlength : start + a.events.length = pageStop history start p := by
    have hevents := congrArg List.length (take_append_page (Nat.le_of_lt hlt) p)
    rw [List.length_append, List.length_take_of_le (Nat.le_of_lt hlt), hstop,
      List.length_take_of_le (Nat.min_le_right _ _)] at hevents
    rw [hstop]
    exact hevents
  have hnext : a.nextPageToken = if pageStop history start p < history.length then
      some (pageToken (pageStop history start p)) else none := rfl
  rw [hlength, hnext, hstop]
  split
  · next hmore => exact ⟨by omega, hmore⟩
  · next hlast => exact ⟨Nat.succ_pos k, by rw [Nat.add_sub_cancel, ← hstart]; exact hlt, by omega⟩

/-- **Pages of one size are counted,** if nothing is added to the history
while they are read. -/
theorem counts {w₀ : Workflow} {p : Nat} (hp : 0 < p) (h : Paging id s pages mark s')
    (hw : s'.workflow? id = some w) (hfits : w.history.length ≤ maxCount64)
    (hw₀ : s.workflow? id = some w₀) (hsame : w₀.history = w.history) (hne : w.history ≠ [])
    (hsize : ∀ page ∈ pages, page.size = p) :
    Counts w.history.length p pages.length (eventsOf pages).length mark := by
  induction h generalizing w with
  | opened => exact ⟨rfl, List.length_pos_iff.2 hne⟩
  | @meanwhile pages mark s' before e ih =>
    -- the history did not grow between the beginning and the end, so not before this event either
    obtain ⟨w', hw', hfirst⟩ := before.continues id w₀ hw₀
    obtain ⟨w'', hw'', hlater⟩ := apply_continues s' e id w' hw'
    obtain rfl : w'' = w := Option.some.inj (hw''.symm.trans hw)
    have hkept : w'.history = w''.history :=
      hlater.history.eq_of_length_le (hsame ▸ hfirst.history.length_le)
    rw [← hkept] at hfits hsame hne ⊢
    exact ih hw' hfits hsame hne hsize
  | @turned pages mark s' r a e before hid htoken hanswer ih =>
    obtain ⟨stored, hstored, hstore, rfl⟩ := exists_page hanswer
    rw [hid] at hstored
    rw [hstore, hstored, Option.some.injEq] at hw
    subst hw
    have hcounts := ih hstored hfits hsame hne fun page hpage =>
      hsize page (List.mem_append_left _ hpage)
    obtain ⟨hstart, hread⟩ := (before.marks hstored hfits).exists_start hfits htoken
    have hlength : (eventsOf pages).length = pageStart r.nextPageToken := by
      rw [hread, List.length_take_of_le hstart]
    have hopen : (eventsOf pages).length = p * pages.length ∧
        (eventsOf pages).length < stored.history.length := by
      cases mark with
      | unopened => exact hcounts
      | next token => exact hcounts
      | finished => cases htoken
    rw [hlength] at hopen
    have hturn := Counts.turn hp hopen.1 hopen.2
    rw [show r.maximumPageSize = p from hsize _ (List.mem_append_right _ List.mem_cons_self)]
    simpa [eventsOf, ← hlength] using hturn

end Paging

open Store Paging in
/-- **Reading a history page by page loses and repeats nothing.** Whatever
has happened to the service and happens while the pages are read, and
however long they are: what has been read is at any time a prefix of the
history, and a page that comes without a token completes it to the whole
history as it stands then. Until then the next request is answered with a
page, unless an injected failure comes first. A history of `n` events to
which nothing is added meanwhile ends after exactly `n / p` pages of `p`
events, rounded up. Events are counted in 64 bits. -/
theorem paging_complete (past : List StoreEvent) (id : String) (pages : List PageRead)
    (mark : Bookmark) (s : Store) (h : Paging id (Store.new.afterAll past) pages mark s)
    (w : Workflow) (hw : s.workflow? id = some w) (hfits : w.history.length ≤ maxCount64) :
    eventsOf pages <+: w.history ∧
      (∀ (r : HistoryRequest) (a : HistoryAnswer) (e : StoreEvent),
        r.execution.workflowId = id → mark.token? = some r.nextPageToken →
        e.answered? s = some (.history r, .ok (.history a)) → a.nextPageToken = none →
        eventsOf pages ++ a.events = w.history) ∧
      (∀ r : HistoryRequest, r.execution.workflowId = id → mark.token? = some r.nextPageToken →
        ∃ a, serve (.history r) s = (.ok (.history a), s)) ∧
      ∀ w₀ p, (Store.new.afterAll past).workflow? id = some w₀ → w₀.history = w.history →
        0 < p → (∀ page ∈ pages, page.size = p) →
        mark.EndsAt pages.length ((w.history.length + p - 1) / p) := by
  have hmarks := h.marks hw hfits
  refine ⟨hmarks.isPrefix, ?_, ?_, ?_⟩
  · intro r a e hid htoken hanswer hlast
    obtain ⟨stored, hstored, -, rfl⟩ := exists_page hanswer
    obtain rfl : stored = w := Option.some.inj (hstored.symm.trans (hid.symm ▸ hw))
    exact (marks_after hmarks hfits htoken r.maximumPageSize).2 hlast
  · intro r hid _
    refine ⟨page w.history (pageStart r.nextPageToken) r.maximumPageSize, ?_⟩
    simp only [serve, readHistory, hid, hw]
    rfl
  · intro w₀ p hw₀ hsame hp hsize
    -- every stored history has at least the event of its start
    obtain ⟨w', hw', hlater⟩ := h.continues id w₀ hw₀
    have hne : w.history ≠ [] := by
      obtain ⟨first, rest, hhistory, -⟩ :=
        ((sound_new.afterAll past).recorded _ (mem_of_workflow? hw₀)).begins
      rw [← hsame, hhistory]
      exact List.cons_ne_nil first rest
    exact (h.counts hp hw hfits hw₀ hsame hne hsize).endsAt hp

open Store Paging in
/-- An order that is signalled between the first page of its history and
the second, which asks for everything that is left. -/
theorem paging_complete_order :
    let signal (name : String) : StoreEvent :=
      .serve (.signal (.new "default" ⟨"order-1", none⟩ name "r-2"))
    let past : List StoreEvent :=
      [.serve (.start (.new "default" "order-1" "OrderWorkflow" "orders" "r-1")), signal "paid",
        signal "packed"]
    let second : HistoryRequest := ⟨"default", ⟨"order-1", none⟩, 0, some "2", false⟩
    ∃ pages s w a, Paging "order-1" (Store.new.afterAll past) pages (.next "2") s ∧
      s.workflow? "order-1" = some w ∧ w.history.length ≤ maxCount64 ∧
      StoreEvent.answered? s (.settle (.history second)) =
        some (.history second, .ok (.history a)) ∧
      (eventsOf pages).length = 2 ∧ w.history.length = 4 ∧ eventsOf pages <+: w.history ∧
      eventsOf pages ++ a.events = w.history := by
  intro signal past second
  let first : HistoryRequest := ⟨"default", ⟨"order-1", none⟩, 2, none, false⟩
  have hopened : Paging "order-1" (Store.new.afterAll past) [] .unopened _ := .opened
  have hanswer : StoreEvent.answered? (Store.new.afterAll past) (.settle (.history first)) =
      some (.history first, .ok (.history (page _ 0 2))) := rfl
  have hmark {history : List HistoryEvent} (h : history.length = 3) :
      Bookmark.after (page history 0 2).nextPageToken = .next "2" := by
    rw [page_eq, pageStop, h]
    rfl
  have hturned := Paging.turned first _ _ hopened rfl rfl hanswer
  rw [hmark rfl] at hturned
  have hread := hturned.meanwhile (signal "shipped")
  obtain ⟨hstart, hcomplete, -, -⟩ := paging_complete past "order-1" _ _ _ hread _ rfl
    (by decide +kernel)
  exact ⟨_, _, _, _, hread, rfl, by decide +kernel, rfl, rfl, rfl, hstart,
    hcomplete second _ (.settle (.history second)) rfl rfl rfl rfl⟩

end ResilientCalls

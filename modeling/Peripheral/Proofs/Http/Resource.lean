import Peripheral.Http.Client
import Peripheral.Proofs.Address.RoundTrip
import Peripheral.Proofs.Op
import Peripheral.Proofs.Text.Search

/-
  Peripheral.Proofs.Http.Resource — the path of a request stays behind the host that it is asked of.

  The authority of a request is written with digits, dots, colons and brackets only
  (`isAuthority_of_mem`), and what follows begins with a slash. So the reader of URLs ends the
  authority where the path begins, whatever the path has in it (`ofText?_of_authority`), and the
  authority is read back as the address and the port it was written from
  (`readAuthority?_withPort`). The first exchange with the peers goes to that host
  (`requests_sendTo`); only a redirect, which the host itself sends, can lead to another one.
-/

namespace Peripheral.Http

open Text.Numeral (dropWhile_front takeWhile_front write)

variable {s front rest : List Char} {c : Char} {a ip : Address} {port : UInt16} {h h' : HostIdentity}
  {path path' : String}

/-! ## Authorities -/

/-- The characters that authorities are written with. -/
def isAuthority (c : Char) : Bool := Address.isWritten c || c == '[' || c == ']'

theorem isAuthority_spec (hc : isAuthority c = true) : 0x20 < c.toNat ∧ c ∉ ['/', '\\', '?', '#', '@'] := by
  constructor
  · simp only [isAuthority, Bool.or_eq_true, beq_iff_eq] at hc
    rcases hc with (hc | rfl) | rfl
    · have hrange := Address.toNat_of_isWritten hc
      omega
    · decide
    · decide
  · intro hmem
    simp only [List.mem_cons, List.not_mem_nil, or_false] at hmem
    rcases hmem with rfl | rfl | rfl | rfl | rfl <;> exact absurd hc (by decide)

/-- What stands in front of the port. -/
def hostChars : Address → List Char
  | .v4 octets => (Address.v4 octets).chars
  | .v6 groups => '[' :: (Address.v6 groups).chars ++ [']']

theorem toList_withPort (a : Address) (n : Nat) : (a.withPort n).toList = hostChars a ++ ':' :: write 10 n := by
  have hport : (toString n).toList = write 10 n := String.toList_ofList
  cases a <;> simp [Address.withPort, hostChars, Address.text, ← hport, toString]

theorem isAuthority_of_isWritten (hc : Address.isWritten c = true) : isAuthority c = true := by simp [isAuthority, hc]

theorem isAuthority_of_mem_chars (hc : c ∈ a.chars) : isAuthority c = true :=
  isAuthority_of_isWritten (Address.isWritten_of_ofChars (Address.ofChars?_chars a) c hc)

theorem isAuthority_of_mem_hostChars (hc : c ∈ hostChars a) : isAuthority c = true := by
  cases a with
  | v4 octets =>
    have hchars : c ∈ (Address.v4 octets).chars := hc
    exact isAuthority_of_mem_chars hchars
  | v6 groups =>
    rcases List.mem_append.mp hc with hc | hc
    · rcases List.mem_cons.mp hc with rfl | hc
      · decide
      · exact isAuthority_of_mem_chars hc
    · rw [List.mem_singleton.mp hc]
      decide

theorem isAuthority_of_mem {n : Nat} (hc : c ∈ (a.withPort n).toList) : isAuthority c = true := by
  rw [toList_withPort] at hc
  rcases List.mem_append.mp hc with hc | hc
  · exact isAuthority_of_mem_hostChars hc
  · rcases List.mem_cons.mp hc with rfl | hc
    · decide
    · exact isAuthority_of_isWritten (Address.isWritten_of_digit (by omega : 10 ≤ 16)
        (Text.Numeral.isSome_digit?_of_mem_write (by omega) (by omega) hc))

/-! ## Reading an authority -/

namespace Url

theorem cutAt_eq (c : Char) (s : List Char) :
    cutAt c s = (Text.cutAt? c s).elim (s, none) fun parts => (parts.1, some parts.2) := by
  unfold cutAt Text.cutAt?
  cases s.dropWhile (· != c) <;> rfl

theorem cutAt_append (hs : c ∉ s) (rest : List Char) : cutAt c (s ++ c :: rest) = (s, some rest) := by
  rw [cutAt_eq, Text.cutAt?_append hs]
  rfl

theorem cutAt_of_notMem (hs : c ∉ s) : cutAt c s = (s, none) := by
  rw [cutAt_eq, Text.cutAt?_of_notMem hs]
  rfl

theorem filter_brackets (hopen : '[' ∉ s) (hclose : ']' ∉ s) : (s.filter fun c => c != '[' && c != ']') = s := by
  refine List.filter_eq_self.mpr fun x hx => ?_
  rw [Text.bne_of_notMem hopen x hx, Text.bne_of_notMem hclose x hx]
  rfl

section Port

variable {host ds : List Char} {n : Nat} (hds : ds ≠ []) (hport : Text.Numeral.read? 10 65536 ds = some n)

include hds hport

/-- A host without colons, and a port behind it. -/
theorem readAuthority?_plain (huser : '@' ∉ host ++ ':' :: ds) (hne : host ≠ []) (hcolon : ':' ∉ host)
    (hopen : '[' ∉ host) (hclose : ']' ∉ host) :
    readAuthority? "http" (host ++ ':' :: ds) = some (String.ofList host, Address.ofChars? host, UInt16.ofNat n) := by
  obtain ⟨d, ds, rfl⟩ := List.exists_cons_of_ne_nil hds
  have htake : (host ++ ':' :: d :: ds).takeWhile (· != ':') = host :=
    takeWhile_front (Text.bne_of_notMem hcolon) (by simp)
  have hdrop : (host ++ ':' :: d :: ds).dropWhile (· != ':') = ':' :: d :: ds :=
    dropWhile_front (Text.bne_of_notMem hcolon) (by simp)
  have hbare := filter_brackets hopen hclose
  obtain ⟨c, host, rfl⟩ := List.exists_cons_of_ne_nil hne
  have hc : c ≠ '[' := fun h => hopen (h ▸ List.mem_cons_self)
  unfold readAuthority?
  rw [cutAt_of_notMem huser]
  rw [List.cons_append] at htake hdrop ⊢
  simp [hc, htake, hdrop, hbare, hport]

/-- A host in brackets, and a port behind it. -/
theorem readAuthority?_bracketed (huser : '@' ∉ '[' :: (host ++ ']' :: ':' :: ds)) (hopen : '[' ∉ host)
    (hclose : ']' ∉ host) : readAuthority? "http" ('[' :: (host ++ ']' :: ':' :: ds)) =
      some (String.ofList ('[' :: (host ++ [']'])), Address.ofChars? host, UInt16.ofNat n) := by
  obtain ⟨d, ds, rfl⟩ := List.exists_cons_of_ne_nil hds
  have htake : (host ++ ']' :: ':' :: d :: ds).takeWhile (· != ']') = host :=
    takeWhile_front (Text.bne_of_notMem hclose) (by simp)
  have hdrop : (host ++ ']' :: ':' :: d :: ds).dropWhile (· != ']') = ']' :: ':' :: d :: ds :=
    dropWhile_front (Text.bne_of_notMem hclose) (by simp)
  have hhost : ('[' :: (host ++ ']' :: ':' :: d :: ds)).take (host.length + 2) = '[' :: (host ++ [']']) := by
    simp [List.take_append, List.take_of_length_le]
  unfold readAuthority?
  rw [cutAt_of_notMem huser]
  dsimp only [Option.getD_none]
  simp [htake, hdrop, hhost, filter_brackets hopen hclose, hport]

end Port

/-- An authority is read back as the address and the port it was written from. -/
theorem readAuthority?_withPort (a : Address) (port : UInt16) :
    readAuthority? "http" (a.withPort port.toNat).toList = some (String.ofList (hostChars a), some a, port) := by
  have huser : '@' ∉ (a.withPort port.toNat).toList := fun hmem => absurd (isAuthority_of_mem hmem) (by decide)
  have hport : Text.Numeral.read? 10 65536 (write 10 port.toNat) = some port.toNat :=
    Text.Numeral.read?_write (by omega) (by omega) port.toNat_lt
  have hwritten : ∀ {c}, Address.isWritten c = false → c ∉ a.chars := by
    intro c hc hmem
    rw [Address.isWritten_of_ofChars (Address.ofChars?_chars a) c hmem] at hc
    cases hc
  have hopen : '[' ∉ a.chars := hwritten (by decide)
  have hclose : ']' ∉ a.chars := hwritten (by decide)
  have hread := Address.ofChars?_chars a
  rw [toList_withPort] at huser ⊢
  cases a with
  | v4 octets =>
    have hne : (Address.v4 octets).chars ≠ [] := by
      intro hnil
      rw [hnil] at hread
      cases hread
    have hhost : hostChars (.v4 octets) = (Address.v4 octets).chars := rfl
    have hcolon : ':' ∉ (Address.v4 octets).chars := Address.colon_notMem_dotted _
    rw [hhost] at huser ⊢
    rw [readAuthority?_plain Text.Numeral.write_ne_nil hport huser hne hcolon hopen hclose, hread, UInt16.ofNat_toNat]
  | v6 groups =>
    have hhost : hostChars (.v6 groups) = '[' :: ((Address.v6 groups).chars ++ [']']) := rfl
    rw [hhost, List.cons_append, List.append_assoc, List.singleton_append] at huser ⊢
    rw [readAuthority?_bracketed Text.Numeral.write_ne_nil hport huser hopen hclose, hread, UInt16.ofNat_toNat]

/-! ## Reading a text -/

/-- What has neither blanks nor controls in it stays as it is. -/
theorem cleaned_append (hfront : ∀ c ∈ front, 0x20 < c.toNat) (s : List Char) :
    cleaned (front ++ s) = front ++ cleaned s := by
  have hfilter : (front.filter fun c => c != '\t' && c != '\n' && c != '\r') = front := by
    refine List.filter_eq_self.mpr fun c hc => ?_
    have hrange := hfront c hc
    have hne : ∀ x : Char, x.toNat ≤ 0x20 → (c != x) = true := by
      intro x hx
      simp only [bne_iff_ne, ne_eq]
      rintro rfl
      omega
    rw [hne '\t' (by decide), hne '\n' (by decide), hne '\r' (by decide)]
    rfl
  have hend : front.reverse.dropWhile (fun c => decide (c.toNat ≤ 0x20)) = front.reverse := by
    refine @dropWhile_front _ [] _ (by simp) fun c hc => ?_
    have hrange := hfront c (List.mem_reverse.mp (List.mem_of_mem_head? hc))
    simpa using hrange
  unfold cleaned
  rw [List.reverse_append, List.dropWhile_append]
  split
  · rename_i hempty
    rw [hend, List.isEmpty_iff.mp hempty, List.reverse_reverse, hfilter]
    simp
  · rw [List.reverse_append, List.filter_append, List.reverse_reverse, hfilter]

theorem withoutUser_of_notMem (hs : '@' ∉ s) : withoutUser s = s := by
  have hall : s.reverse.takeWhile (· != '@') = s.reverse := by
    rw [List.takeWhile_eq_self_iff]
    exact Text.bne_of_notMem (by simpa using hs)
  rw [withoutUser, hall, List.reverse_reverse]

/-- The authority ends where the path begins, whatever follows. -/
theorem ofText?_of_authority {text host : String} (htext : text.toList = "http://".toList ++ (s ++ '/' :: rest))
    (hne : s ≠ []) (hs : ∀ c ∈ s, isAuthority c = true)
    (hread : readAuthority? "http" s = some (host, some ip, port)) :
    ofText? text = some (ofParts "http" (hostOf ip) (some ip) port (cleaned ('/' :: rest))) := by
  have hspec := fun c hc => isAuthority_spec (hs c hc)
  have hslash : cleaned ('/' :: rest) = '/' :: cleaned rest := @cleaned_append ['/'] (by simp) rest
  have hcleaned : cleaned (text.toList.dropWhile fun c => c.toNat ≤ 0x20) =
      "http".toList ++ ':' :: ("//".toList ++ (s ++ '/' :: cleaned rest)) := by
    have hstart : (text.toList.dropWhile fun c => decide (c.toNat ≤ 0x20)) = text.toList := by
      rw [htext]
      rfl
    have hfront : ∀ c ∈ "http://".toList ++ s, 0x20 < c.toNat := by
      intro c hc
      rcases List.mem_append.mp hc with hc | hc
      · have hscheme : ("http://".toList.all fun c => decide (0x20 < c.toNat)) = true := by decide
        exact of_decide_eq_true (List.all_eq_true.mp hscheme c hc)
      · exact (hspec c hc).1
    rw [hstart, htext, ← List.append_assoc, cleaned_append hfront, hslash]
    rfl
  have hstays : ∀ c ∈ s, staysInAuthority c = true := by
    intro c hc
    have hnot := (hspec c hc).2
    simp only [List.mem_cons, List.not_mem_nil, or_false, not_or] at hnot
    simp [staysInAuthority, isPathSeparator, hnot]
  have hslashes : ("//".toList ++ (s ++ '/' :: cleaned rest)).dropWhile isPathSeparator = s ++ '/' :: cleaned rest := by
    refine dropWhile_front (by simp [isPathSeparator]) fun c hc => ?_
    obtain ⟨x, s, rfl⟩ := List.exists_cons_of_ne_nil hne
    obtain rfl : x = c := by simpa using hc
    have hx := hstays x List.mem_cons_self
    simp only [staysInAuthority, Bool.and_eq_true, Bool.not_eq_true'] at hx
    exact hx.1.1
  have hends : ∀ c ∈ ('/' :: cleaned rest).head?, staysInAuthority c = false := by
    simp [staysInAuthority, isPathSeparator]
  have hauthority : (s ++ '/' :: cleaned rest).takeWhile staysInAuthority = s := takeWhile_front hstays hends
  have hpath : (s ++ '/' :: cleaned rest).dropWhile staysInAuthority = '/' :: cleaned rest :=
    dropWhile_front hstays hends
  have huser : '@' ∉ s := fun hmem => absurd (hs '@' hmem) (by decide)
  have hscheme : String.ofList ("http".toList.map Char.toLower) = "http" := by decide
  unfold ofText?
  rw [hcleaned, cutAt_append (by decide)]
  dsimp only
  rw [hscheme, hslashes, hauthority, hpath, withoutUser_of_notMem huser, hread, if_pos (.inl rfl), hslash]
  rfl

end Url

/-! ## The text of a request -/

theorem exists_absolute (path : List Char) : ∃ rest, Url.absolute path = '/' :: rest := by
  unfold Url.absolute
  split
  · rename_i hslash
    obtain ⟨rest, hrest⟩ := List.head?_eq_some_iff.mp hslash
    exact ⟨rest, hrest⟩
  · exact ⟨path, rfl⟩

theorem toList_resourceText (h : HostIdentity) (path : String) : (resourceText h path).toList =
    "http://".toList ++ ((h.ip.withPort h.port.toNat).toList ++ Url.absolute path.toList) := by
  unfold resourceText Url.absolute
  dsimp only
  split <;> simp [toString]

theorem withPort_ne_nil (a : Address) (n : Nat) : (a.withPort n).toList ≠ [] := by
  rw [toList_withPort]
  simp

/-- A text of a request is read as the URL of its path on its host. -/
theorem ofText?_resourceText (h : HostIdentity) (path : String) :
    Url.ofText? (resourceText h path) = some (Url.ofPath h.ip h.port path) := by
  obtain ⟨rest, hrest⟩ := exists_absolute path.toList
  have htext := toList_resourceText h path
  rw [hrest] at htext
  rw [Url.ofText?_of_authority htext (withPort_ne_nil _ _) (fun c => isAuthority_of_mem)
    (Url.readAuthority?_withPort _ _), Url.ofPath, hrest]

/-- The text tells the address, the port and the path, but for one slash in front of the path. -/
theorem resourceText_eq_iff : resourceText h path = resourceText h' path' ↔
    h.ip = h'.ip ∧ h.port = h'.port ∧ Url.absolute path.toList = Url.absolute path'.toList := by
  rw [← String.toList_inj, toList_resourceText, toList_resourceText]
  constructor
  · intro htext
    have hslash : ∀ (a : Address) (n : Nat), '/' ∉ (a.withPort n).toList :=
      fun a n hmem => absurd (isAuthority_of_mem hmem) (by decide)
    obtain ⟨rest, hrest⟩ := exists_absolute path.toList
    obtain ⟨rest', hrest'⟩ := exists_absolute path'.toList
    rw [hrest, hrest'] at htext ⊢
    have hcut := congrArg (Text.cutAt? '/') (List.append_cancel_left htext)
    rw [Text.cutAt?_append (hslash _ _), Text.cutAt?_append (hslash _ _), Option.some_inj, Prod.mk.injEq] at hcut
    have hread := Url.readAuthority?_withPort h.ip h.port
    rw [hcut.1, Url.readAuthority?_withPort] at hread
    simp only [Option.some.injEq, Prod.mk.injEq] at hread
    exact ⟨hread.2.1.symm, hread.2.2.symm, congrArg _ hcut.2⟩
  · rintro ⟨hip, hport, hpath⟩
    rw [hip, hport, hpath]

/-- Paths that ask for one resource differ in one slash at the front, or not at all. -/
theorem absolute_eq_iff {p q : List Char} : Url.absolute p = Url.absolute q ↔
    p = q ∨ (p = '/' :: q ∧ q.head? ≠ some '/') ∨ (q = '/' :: p ∧ p.head? ≠ some '/') := by
  unfold Url.absolute
  split <;> split <;> grind

/-! ## First requests -/

section Requests

variable {peers : List Net.Peer} {u start : Url} {verb : Verb} {body : List UInt8} {j : Journal}

/-- The peer that a URL leads to. -/
def peerOf? (peers : List Net.Peer) (u : Url) : Option Nat := u.address.bind (Net.peerAt? peers · u.port)

/-- An exchange is a request to the peer that the URL leads to, or comes to no response. -/
theorem run_exchange (peers : List Net.Peer) (u : Url) (verb : Verb) (body : List UInt8) (j : Journal) :
    (∃ x, (exchange peers u verb body).run j = (x, j) ∧
        ∀ status content location, x ≠ .response status content location) ∨
      ∃ x i, peerOf? peers u = some i ∧
        (exchange peers u verb body).run j = (x, j.request (requestTo i u verb body)) := by
  unfold exchange
  split
  · rename_i i hscheme hpeer
    split
    · rename_i responses hkind
      have hget : ∀ k : Journal, (get : Act Journal).run k = (k, k) := fun _ => rfl
      have hmodify : ∀ (f : Journal → Journal) (k : Journal), (modify f : Act Unit).run k = ((), f k) := fun _ _ => rfl
      rw [Act.run_bind, hget]
      dsimp only
      rw [Act.run_bind, hmodify]
      dsimp only
      generalize responses[j.requests.countP (·.peer == i)]? = response
      refine .inr ?_
      cases response with
      | none => exact ⟨_, i, hpeer, rfl⟩
      | some response =>
        cases response with
        | hang => exact ⟨_, i, hpeer, rfl⟩
        | answer status content location =>
          dsimp only
          split
          · exact ⟨_, i, hpeer, rfl⟩
          · exact ⟨_, i, hpeer, rfl⟩
    · exact .inl ⟨.silent, rfl, nofun⟩
    · exact .inl ⟨.cut, rfl, nofun⟩
  · exact .inl ⟨.refused, rfl, nofun⟩

/-- One exchange, and what the redirects after it send. -/
theorem requests_step (redirects : Nat) (u : Url) (verb : Verb) (body : List UInt8) (j : Journal)
    (hnext : ∀ n, redirects = n + 1 → ∀ u verb body j,
      ∃ sent, ((sendTo peers start n u verb body).run j).2.requests = j.requests ++ sent) :
    ∃ sent, ((sendTo peers start redirects u verb body).run j).2.requests = j.requests ++ sent ∧
      ∀ r ∈ sent.head?, ∃ i, peerOf? peers u = some i ∧ r = requestTo i u verb body := by
  rw [sendTo, Act.run_bind]
  rcases run_exchange peers u verb body j with ⟨x, hrun, hx⟩ | ⟨x, i, hpeer, hrun⟩
  · rw [hrun]
    refine ⟨[], ?_, by simp⟩
    rw [List.append_nil]
    cases x with
    | response status content location => exact absurd rfl (hx status content location)
    | _ => rfl
  · rw [hrun]
    dsimp only
    have hfirst : ∀ {rs : List Request}, (∃ more, rs = (j.request (requestTo i u verb body)).requests ++ more) →
        ∃ sent, rs = j.requests ++ sent ∧ ∀ r ∈ sent.head?, ∃ i, peerOf? peers u = some i ∧ r = requestTo i u verb body := by
      rintro _ ⟨more, rfl⟩
      refine ⟨requestTo i u verb body :: more, by simp [Journal.request], fun r hr => ⟨i, hpeer, ?_⟩⟩
      exact (Option.some.inj hr).symm
    refine hfirst ?_
    generalize j.request (requestTo i u verb body) = k
    have hover : ∃ more, k.requests = k.requests ++ more := ⟨[], (List.append_nil _).symm⟩
    cases x with
    | response status content location =>
      dsimp only
      split
      · split
        · exact hover
        · split
          · exact hnext _ rfl _ _ _ k
          · exact hover
      · exact hover
    | _ => exact hover

/-- The first of all requests goes to the peer that the URL leads to. -/
theorem requests_sendTo (redirects : Nat) (u : Url) (verb : Verb) (body : List UInt8) (j : Journal) :
    ∃ sent, ((sendTo peers start redirects u verb body).run j).2.requests = j.requests ++ sent ∧
      ∀ r ∈ sent.head?, ∃ i, peerOf? peers u = some i ∧ r = requestTo i u verb body := by
  induction redirects generalizing u verb body j with
  | zero => exact requests_step 0 u verb body j nofun
  | succ redirects ih =>
    refine requests_step (redirects + 1) u verb body j fun n hn u verb body j => ?_
    obtain rfl : redirects = n := Nat.succ.inj hn
    obtain ⟨sent, hsent, -⟩ := ih u verb body j
    exact ⟨sent, hsent⟩

end Requests

/-- A request for a URL that names a host sends nothing to another one, unless that host redirects it. -/
theorem requests_ofPeers (peers : List Net.Peer) (ms : UInt32) (h : HostIdentity) (path : String) (verb : Verb)
    (body : List UInt8) (j : Journal) : ∃ sent,
    ((Client.ofPeers peers ms (resourceText h path) verb body).run j).2.requests = j.requests ++ sent ∧
      ∀ r ∈ sent.head?, Net.peerAt? peers h.ip h.port = some r.peer ∧ r.body = body := by
  obtain ⟨sent, hsent, hfirst⟩ :=
    @requests_sendTo peers (Url.ofPath h.ip h.port path) mostRedirects (Url.ofPath h.ip h.port path) verb body j
  rw [Client.ofPeers, ofText?_resourceText]
  refine ⟨sent, hsent, fun r hr => ?_⟩
  obtain ⟨i, hpeer, rfl⟩ := hfirst r hr
  exact ⟨hpeer, rfl⟩

/-- The text of a request is the scheme, the host as it is written and the path, set apart by a
    slash. Whatever the path is, the text is read as a URL of that host, and asking for it asks that
    host first. No two texts are one, but for the slash that a path may do without. -/
theorem path_stays_behind_authority (h : HostIdentity) (path : String) :
    let authority := h.ip.withPort h.port.toNat
    (path.toList.head? = some '/' → resourceText h path = "http://" ++ authority ++ path) ∧
      (path.toList.head? ≠ some '/' → resourceText h path = "http://" ++ authority ++ "/" ++ path) ∧
      (∀ c ∈ authority.toList, c ∉ ['/', '\\', '?', '#', '@']) ∧
      (∃ host, Url.readAuthority? "http" authority.toList = some (host, some h.ip, h.port)) ∧
      (∃ u, Url.ofText? (resourceText h path) = some u ∧ u.scheme = "http" ∧ u.address = some h.ip ∧ u.port = h.port) ∧
      (∀ peers ms verb body j, ∃ sent,
        ((Client.ofPeers peers ms (resourceText h path) verb body).run j).2.requests = j.requests ++ sent ∧
          ∀ r ∈ sent.head?, Net.peerAt? peers h.ip h.port = some r.peer ∧ r.body = body) ∧
      ∀ h' path', resourceText h path = resourceText h' path' ↔ h.ip = h'.ip ∧ h.port = h'.port ∧
        (path = path' ∨ (path = "/" ++ path' ∧ path'.toList.head? ≠ some '/') ∨
          (path' = "/" ++ path ∧ path.toList.head? ≠ some '/')) := by
  intro authority
  refine ⟨fun hslash => ?_, fun hslash => ?_, fun c hc => (isAuthority_spec (isAuthority_of_mem hc)).2,
    ⟨_, Url.readAuthority?_withPort h.ip h.port⟩, ⟨_, ofText?_resourceText h path, rfl, rfl, rfl⟩,
    fun peers ms verb body j => requests_ofPeers peers ms h path verb body j, fun h' path' => ?_⟩
  · rw [← String.toList_inj, toList_resourceText, Url.absolute, if_pos hslash]
    simp [authority]
  · rw [← String.toList_inj, toList_resourceText, Url.absolute, if_neg hslash]
    simp [authority]
  · have hslash : ∀ p q : String, p = "/" ++ q ↔ p.toList = '/' :: q.toList := fun p q => by
      rw [← String.toList_inj]
      simp
    rw [resourceText_eq_iff, absolute_eq_iff, hslash, hslash, String.toList_inj]

/-- What looks like another host in a path, with a user in front and a port behind, is a part of the path. -/
theorem host_in_path_is_not_asked :
    let h : HostIdentity := ⟨"", .ofSegments .v6 [0xfe80, 0, 0, 0, 0, 0, 0, 1], .zero, 8080, .tcp⟩
    let peers : List Net.Peer := [⟨.ofSegments .v4 [10, 0, 0, 9], 81, .http [.answer 200 [] none]⟩,
      ⟨h.ip, 8080, .http [.answer 200 [] none]⟩]
    resourceText h "@10.0.0.9:81\\x" = "http://[fe80::1]:8080/@10.0.0.9:81\\x" ∧
      ∀ r ∈ ((Client.ofPeers peers 500 (resourceText h "@10.0.0.9:81\\x") .post [1, 2]).run {}).2.requests.head?,
        r.peer = 1 ∧ r.body = [1, 2] := by
  intro h peers
  obtain ⟨-, hplain, -, -, -, hfirst, -⟩ := path_stays_behind_authority h "@10.0.0.9:81\\x"
  obtain ⟨sent, hsent, hpeer⟩ := hfirst peers 500 .post [1, 2] {}
  have hauthority : h.ip.withPort h.port.toNat = "[fe80::1]:8080" := by decide
  have hsecond : Net.peerAt? peers h.ip h.port = some 1 := by decide
  refine ⟨?_, fun r hr => ?_⟩
  · rw [hplain (by decide), hauthority]
    decide
  · rw [hsent, List.nil_append] at hr
    obtain ⟨hplace, hbody⟩ := hpeer r hr
    exact ⟨(Option.some.inj (hsecond.symm.trans hplace)).symm, hbody⟩

end Peripheral.Http

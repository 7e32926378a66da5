import Mathlib.Tactic.Common
import SecurityKey.Proofs.CommandLine
import SecurityKey.Proofs.Manager
/-!
# Listing passkeys is all or nothing

The passkeys of a device are listed site by site, in one call for each. A walk through the sites
either gets through them all, or it ends with the first call that fails (`walk_listSites`), and
with the listing of the sites before it that is what `listCredentials` does
(`walk_listCredentials`). So a list that is given is never a part of one.

The command that prints the list says nothing of it before it is there as a whole
(`says_of_passkeys_error`).
-/

namespace SecurityKey.Manager

open Procedure

variable {handle : String} {pin : Option Pin} {within : Nat} {domains : List String}
  {trace : List Exchange} {result : Except Failure (List Site)}

/-! ## The walk through the sites -/

/-- The calls for the passkeys of sites, with the replies that they got. -/
def siteRuns (handle : String) (pin : Option Pin) (within : Nat) (domains : List String)
    (replies : List Reply) : List Exchange :=
  List.zipWith (fun domain reply => .ran (.listCredentials handle pin domain) within (.ok reply))
    domains replies

/-- The sites of the replies. -/
def sitesOf (domains : List String) (replies : List Reply) : List Site :=
  List.zipWith (fun domain reply => Site.ofListing domain reply.stdout) domains replies

/-- The ways through the calls for sites. -/
inductive SiteWalk (handle : String) (pin : Option Pin) (within : Nat) :
    List String → List Exchange → Except Failure (List Site) → Prop
  /-- No call fails, and every site has its passkeys. -/
  | complete (domains : List String) (replies : List Reply) :
      domains.length = replies.length → (∀ reply ∈ replies, reply.deviceError? = none) →
      SiteWalk handle pin within domains (siteRuns handle pin within domains replies)
        (.ok (sitesOf domains replies))
  /-- The first call that fails is the last, and its failure is all there is. -/
  | cutOff (done : List String) (replies : List Reply) {domain : String} {rest : List String}
      {answer : Except Failure Reply} {failure : Failure} :
      done.length = replies.length → (∀ reply ∈ replies, reply.deviceError? = none) →
      checked answer = .error failure →
      SiteWalk handle pin within (done ++ domain :: rest)
        (siteRuns handle pin within done replies ++
          [.ran (.listCredentials handle pin domain) within answer])
        (.error failure)

/-- A call that does not fail, before a way through the other calls. -/
theorem SiteWalk.cons {domain : String} {reply : Reply} (h : reply.deviceError? = none)
    (hrest : SiteWalk handle pin within domains trace result) :
    SiteWalk handle pin within (domain :: domains)
      (.ran (.listCredentials handle pin domain) within (.ok reply) :: trace)
      (result.map (Site.ofListing domain reply.stdout :: ·)) := by
  cases hrest with
  | complete _ replies hlen hreplies =>
    have hall : ∀ other ∈ reply :: replies, other.deviceError? = none :=
      List.forall_mem_cons.2 ⟨h, hreplies⟩
    exact .complete (domain :: domains) (reply :: replies) (congrArg (· + 1) hlen) hall
  | cutOff done replies hlen hreplies hfail =>
    have hall : ∀ other ∈ reply :: replies, other.deviceError? = none :=
      List.forall_mem_cons.2 ⟨h, hreplies⟩
    exact .cutOff (domain :: done) (reply :: replies) (congrArg (· + 1) hlen) hall hfail

theorem walk_listSites_cons {domain : String} {reply : Reply} (h : reply.deviceError? = none)
    (hrest : Walk (listSites handle pin within domains).run trace result) :
    Walk (listSites handle pin within (domain :: domains)).run
      (.ran (.listCredentials handle pin domain) within (.ok reply) :: trace)
      (result.map (Site.ofListing domain reply.stdout :: ·)) := by
  rw [listSites, walk_attempt_bind]
  refine .inr ⟨[_], trace, reply, walk_runChecked.2 ⟨.ok reply, rfl, ?_⟩, ?_, rfl⟩
  · exact (checked_eq_ok.2 ⟨rfl, h⟩).symm
  · exact walk_attempt_map.2 ⟨result, hrest, rfl⟩

theorem siteWalk_of_walk (h : Walk (listSites handle pin within domains).run trace result) :
    SiteWalk handle pin within domains trace result := by
  -- Site by site: the first call fails, or it comes before a way through the other sites.
  induction domains generalizing trace result with
  | nil =>
    obtain ⟨rfl, rfl⟩ := walk_attempt_pure.1 h
    exact .complete [] [] rfl fun reply hreply => nomatch hreply
  | cons domain domains ih =>
    rw [listSites, walk_attempt_bind] at h
    rcases h with ⟨failure, hrun, rfl⟩ | ⟨first, second, reply, hrun, hrest, rfl⟩
    · obtain ⟨answer, rfl, hfail⟩ := walk_runChecked.1 hrun
      exact .cutOff [] [] rfl (fun reply hreply => nomatch hreply) hfail.symm
    · obtain ⟨answer, rfl, hok⟩ := walk_runChecked.1 hrun
      obtain ⟨rfl, herror⟩ := checked_eq_ok.1 hok.symm
      obtain ⟨inner, hsites, rfl⟩ := walk_attempt_map.1 hrest
      exact (ih hsites).cons herror

theorem walk_of_siteWalk (h : SiteWalk handle pin within domains trace result) :
    Walk (listSites handle pin within domains).run trace result := by
  cases h with
  | complete _ replies hlen hreplies =>
    induction domains generalizing replies with
    | nil =>
      obtain rfl : replies = [] := List.length_eq_zero_iff.1 hlen.symm
      exact walk_attempt_pure.2 ⟨rfl, rfl⟩
    | cons domain domains ih =>
      cases replies with
      | nil => cases hlen
      | cons reply replies =>
        obtain ⟨hreply, hrest⟩ := List.forall_mem_cons.1 hreplies
        exact walk_listSites_cons hreply (ih replies hrest (Nat.succ.inj hlen))
  | cutOff done replies hlen hreplies hfail =>
    induction done generalizing replies with
    | nil =>
      obtain rfl : replies = [] := List.length_eq_zero_iff.1 hlen.symm
      rw [List.nil_append, listSites, walk_attempt_bind]
      exact .inl ⟨_, walk_runChecked.2 ⟨_, rfl, hfail.symm⟩, rfl⟩
    | cons domain done ih =>
      cases replies with
      | nil => cases hlen
      | cons reply replies =>
        obtain ⟨hreply, hrest⟩ := List.forall_mem_cons.1 hreplies
        exact walk_listSites_cons hreply (ih replies (Nat.succ.inj hlen) hrest)

/-- **The walk through the sites** goes on to the first failure, or through all of them. -/
theorem walk_listSites :
    Walk (listSites handle pin within domains).run trace result ↔
      SiteWalk handle pin within domains trace result :=
  ⟨siteWalk_of_walk, walk_of_siteWalk⟩

/-! ## The whole listing -/

/-- The ways through the listing of all passkeys: the sites are listed, and where that goes well
each of them is gone to. -/
inductive PasskeyWalk (handle : String) (pin : Option Pin) (within : Nat) :
    List Exchange → Except Failure (List Site) → Prop
  | refused {answer : Except Failure Reply} {failure : Failure} :
      checked answer = .error failure →
      PasskeyWalk handle pin within [.ran (.listDomains handle pin) within answer]
        (.error failure)
  | listed {reply : Reply} {runs : List Exchange} {result : Except Failure (List Site)} :
      reply.deviceError? = none →
      SiteWalk handle pin within (Site.domainsOf reply.stdout) runs result →
      PasskeyWalk handle pin within (.ran (.listDomains handle pin) within (.ok reply) :: runs)
        result

/-- Whether an exchange is a call that failed, by the runner or by a device error in the reply. -/
def Failing : Exchange → Prop
  | .ran _ _ answer => ∃ failure, checked answer = .error failure
  | _ => False

theorem not_failing_of_reply {call : Invocation} {reply : Reply} (h : reply.deviceError? = none) :
    ¬ Failing (.ran call within (.ok reply)) := by
  rintro ⟨failure, hfail⟩
  rw [checked_eq_ok.2 ⟨rfl, h⟩] at hfail
  cases hfail

theorem not_failing_siteRuns {replies : List Reply}
    (h : ∀ reply ∈ replies, reply.deviceError? = none) :
    ∀ exchange ∈ siteRuns handle pin within domains replies, ¬ Failing exchange := by
  intro exchange he
  rw [siteRuns, ← List.map_uncurry_zip_eq_zipWith] at he
  obtain ⟨⟨domain, reply⟩, hmem, rfl⟩ := List.mem_map.1 he
  exact not_failing_of_reply (h reply (List.of_mem_zip hmem).2)

/-- A list is given exactly where no call failed. -/
theorem SiteWalk.ok_iff (h : SiteWalk handle pin within domains trace result) :
    (∃ sites, result = .ok sites) ↔ ∀ exchange ∈ trace, ¬ Failing exchange := by
  cases h with
  | complete _ replies _ hreplies =>
    exact ⟨fun _ => not_failing_siteRuns hreplies, fun _ => ⟨_, rfl⟩⟩
  | cutOff done replies _ _ hfail =>
    constructor
    · rintro ⟨sites, hsites⟩
      cases hsites
    · intro hall
      exact absurd ⟨_, hfail⟩ (hall _ (List.mem_append_right _ (List.mem_singleton_self _)))

theorem PasskeyWalk.ok_iff (h : PasskeyWalk handle pin within trace result) :
    (∃ sites, result = .ok sites) ↔ ∀ exchange ∈ trace, ¬ Failing exchange := by
  cases h with
  | refused hfail =>
    constructor
    · rintro ⟨sites, hsites⟩
      cases hsites
    · intro hall
      exact absurd ⟨_, hfail⟩ (hall _ (List.mem_singleton_self _))
  | listed herror hsites =>
    rw [hsites.ok_iff, List.forall_mem_cons]
    exact ⟨fun hall => ⟨not_failing_of_reply herror, hall⟩, fun hall => hall.2⟩

variable {manager : Manager} {session : Session}

/-- With a PIN, the lock is taken and the listing runs. -/
theorem walk_listCredentials {entered : Pin} (hpin : session.pin? = some entered) :
    Walk (manager.listCredentials session).run trace result ↔
      ∃ calls, trace = .acquired session.handle :: calls ∧
        PasskeyWalk session.handle (some entered) manager.timeouts.invocation calls result := by
  have hrequire : (requirePin session).run = pure (.ok entered) := by
    rw [requirePin, hpin]; rfl
  have hcredentials : (manager.listCredentials session).run =
      (withLock session.handle (do
        let within := manager.timeouts.invocation
        let reply ← runChecked (.listDomains session.handle (some entered)) within
        listSites session.handle (some entered) within (Site.domainsOf reply.stdout))).run := by
    rw [listCredentials, ExceptT.run_bind, hrequire]; rfl
  rw [hcredentials, walk_withLock]
  refine exists_congr fun calls => and_congr_right fun _ => ?_
  dsimp only
  rw [walk_attempt_bind]
  constructor
  · rintro (⟨failure, hrun, rfl⟩ | ⟨first, second, reply, hrun, hrest, rfl⟩)
    · obtain ⟨answer, rfl, hfail⟩ := walk_runChecked.1 hrun
      exact .refused hfail.symm
    · obtain ⟨answer, rfl, hok⟩ := walk_runChecked.1 hrun
      obtain ⟨rfl, herror⟩ := checked_eq_ok.1 hok.symm
      exact .listed herror (walk_listSites.1 hrest)
  · intro h
    cases h with
    | refused hfail => exact .inl ⟨_, walk_runChecked.2 ⟨_, rfl, hfail.symm⟩, rfl⟩
    | listed herror hsites =>
      refine .inr ⟨[_], _, _, walk_runChecked.2 ⟨_, rfl, ?_⟩, walk_listSites.2 hsites, rfl⟩
      exact (checked_eq_ok.2 ⟨rfl, herror⟩).symm

end SecurityKey.Manager

namespace SecurityKey.CommandLine

open Procedure Manager

/-! ## The command -/

/-- How the lines begin that disclose a site or a passkey. -/
def disclosures : List String :=
  ["\n🌐 ", "  Credential ID: ", "    User: ", "    Email: "]

/-- Whether a text discloses a site or a passkey. -/
def Discloses (text : String) : Prop :=
  ∃ opening ∈ disclosures, opening.toList <+: text.toList

theorem discloses_append {opening : String} (h : opening ∈ disclosures) (rest : String) :
    Discloses (opening ++ rest) :=
  ⟨opening, h, by rw [String.toList_append]; exact List.prefix_append _ _⟩

/-- A text that discloses something begins with a blank of one of two kinds. -/
theorem Discloses.first {text : String} (h : Discloses text) :
    text.toList.head? = some '\n' ∨ text.toList.head? = some ' ' := by
  obtain ⟨opening, hopening, rest, hrest⟩ := h
  have hhead : opening.toList.head? = some '\n' ∨ opening.toList.head? = some ' ' := by
    clear hrest
    revert opening
    decide
  rw [← hrest, List.head?_append]
  rcases hhead with hhead | hhead
  · exact .inl (by rw [hhead]; rfl)
  · exact .inr (by rw [hhead]; rfl)

theorem not_discloses {text opening : String} {c : Char} (hc : opening.toList.head? = some c)
    (hne : c ≠ '\n' ∧ c ≠ ' ') : ¬ Discloses (opening ++ text) := by
  intro h
  have hhead : (opening ++ text).toList.head? = some c := by
    rw [String.toList_append, List.head?_append, hc]; rfl
  rcases h.first with h | h
  · exact hne.1 (Option.some.inj (hhead.symm.trans h))
  · exact hne.2 (Option.some.inj (hhead.symm.trans h))

theorem says_disclosure {opening : String} (h : opening ∈ disclosures) (rest : String) :
    Says Discloses (sayLine (opening ++ rest)).run := by
  refine says_sayLine ?_
  rw [String.append_assoc]
  exact discloses_append h _

/-- The lines of a passkey disclose it. -/
theorem says_sayCredential (credential : Credential) :
    Says Discloses (sayCredential credential).run := by
  have hid : Says Discloses (sayLine ("  Credential ID: " ++ credential.id)).run :=
    says_disclosure (by decide) credential.id
  have huser : Says Discloses (sayLine ("    User: " ++ credential.user)).run :=
    says_disclosure (by decide) credential.user
  have hemail : Says Discloses (sayLine ("    Email: " ++ credential.email)).run :=
    says_disclosure (by decide) credential.email
  refine Says.attempt_bind hid fun _ => ?_
  dsimp only
  split_ifs
  · exact says_pure _
  · exact hemail
  · exact huser.attempt_bind fun _ => says_pure _
  · exact huser.attempt_bind fun _ => hemail

theorem unfailing_sayCredential (credential : Credential) :
    Unfailing (sayCredential credential) := by
  refine Unfailing.bind (unfailing_sayLine _) fun _ => ?_
  dsimp only
  split_ifs
  · exact unfailing_pure ()
  · exact unfailing_sayLine _
  · exact Unfailing.bind (unfailing_sayLine _) fun _ => unfailing_pure ()
  · exact Unfailing.bind (unfailing_sayLine _) fun _ => unfailing_sayLine _

/-- Prints sites with their passkeys. -/
def saySites (sites : List Site) : Job Unit :=
  sites.forM fun site => do
    sayLine ("\n🌐 " ++ site.domain)
    site.credentials.forM sayCredential

/-- The list discloses with every line that it has. -/
theorem says_saySites (sites : List Site) : Says Discloses (saySites sites).run := by
  refine says_forM fun site => Says.attempt_bind ?_ fun _ => says_forM says_sayCredential
  exact says_disclosure (by decide) site.domain

theorem unfailing_saySites (sites : List Site) : Unfailing (saySites sites) := by
  refine unfailing_forM fun site => Unfailing.bind (unfailing_sayLine _) fun _ => ?_
  exact unfailing_forM unfailing_sayCredential

variable {manager : Manager} {device : Nat} {pin : Option Pin} {input : List String}
  {trace : List Exchange} {trouble : Trouble}

/-- The command fails where the session cannot be opened, and where the listing fails. -/
theorem walk_passkeys_error :
    Walk (passkeys manager device pin input).run trace (.error trouble) ↔
      Walk (openSession manager device pin input).run trace (.error trouble) ∨
      ∃ first second session failure,
        Walk (openSession manager device pin input).run first (.ok session) ∧
          session.capabilities.passkeys ∧
          Walk (manager.listCredentials session).run second (.error failure) ∧
          trace = first ++ second ∧ trouble = .failed failure := by
  rw [passkeys, walk_attempt_bind]
  constructor
  · rintro (⟨inner, hopen, hres⟩ | ⟨first, second, session, hopen, hrest, rfl⟩)
    · cases hres
      exact .inl hopen
    · refine .inr ?_
      split_ifs at hrest with hcapable
      · rcases walk_attempt_bind.1 hrest with
          ⟨inner, hlist, hres⟩ | ⟨listing, printing, sites, _, hprint, _⟩
        · cases hres
          obtain ⟨result, hlist, hres⟩ := walk_attempt.1 hlist
          cases result with
          | ok sites => cases hres
          | error failure => exact ⟨first, second, session, failure, hopen, hcapable, hlist, rfl,
              Except.error.inj hres⟩
        · exact absurd hprint (unfailing_saySites sites printing trouble)
      · exact absurd hrest (unfailing_sayLine _ second trouble)
  · rintro (hopen | ⟨first, second, session, failure, hopen, hcapable, hlist, rfl, rfl⟩)
    · exact .inl ⟨trouble, hopen, rfl⟩
    · refine .inr ⟨first, second, session, hopen, ?_, rfl⟩
      rw [if_pos hcapable, walk_attempt_bind]
      exact .inl ⟨_, walk_attempt.2 ⟨_, hlist, rfl⟩, rfl⟩

/-- **Nothing is disclosed by a command that fails.** -/
theorem says_of_passkeys_error
    (h : Walk (passkeys manager device pin input).run trace (.error trouble)) :
    ∀ text ∈ saidIn trace, ¬ Discloses text := by
  have hopening : Says (fun text => ¬ Discloses text)
      (openSession manager device pin input).run := by
    refine says_openSession (fun device => ?_) ?_ fun error => ?_
    · rw [String.append_assoc]
      exact not_discloses (c := '🔑') (by decide) (by decide)
    · exact fun h => absurd h.first (by decide)
    · rw [String.append_assoc]
      exact not_discloses (c := '⚠') (by decide) (by decide)
  intro text htext
  rcases walk_passkeys_error.1 h with hopen | ⟨first, second, session, failure, hopen, _, hlist,
    rfl, _⟩
  · exact hopening _ _ hopen text htext
  · rw [saidIn_append] at htext
    rcases List.mem_append.1 htext with htext | htext
    · exact hopening _ _ hopen text htext
    · exact (quiet_listCredentials manager session _ _ hlist text htext).elim

/-- What listing the passkeys on a session's device comes to. -/
structure AllOrNothing (manager : Manager) (session : Session) (entered : Pin) : Prop where
  domainArgs : (Invocation.listDomains session.handle (some entered)).args =
    ["-L", "-r", "-w", entered.text, session.handle]
  siteArgs : ∀ domain, (Invocation.listCredentials session.handle (some entered) domain).args =
    ["-L", "-k", domain, "-w", entered.text, session.handle]
  /-- The ways through it, for any answers of the tool. -/
  walks : ∀ trace result, Walk (manager.listCredentials session).run trace result ↔
    ∃ calls, trace = .acquired session.handle :: calls ∧
      PasskeyWalk session.handle (some entered) manager.timeouts.invocation calls result
  /-- One of them is gone by every tool, whatever has passed before. -/
  follows : ∀ tool past, ∃ calls,
    (follow tool past (manager.listCredentials session).run).1 = .acquired session.handle :: calls ∧
      PasskeyWalk session.handle (some entered) manager.timeouts.invocation calls
        (follow tool past (manager.listCredentials session).run).2
  /-- There is a list exactly where no call failed. -/
  ok_iff : ∀ trace result, Walk (manager.listCredentials session).run trace result →
    ((∃ sites, result = .ok sites) ↔ ∀ exchange ∈ trace, ¬ Failing exchange)

/-- What the command that lists the passkeys prints of them. -/
structure PrintsAllOrNothing (manager : Manager) (device : Nat) (pin : Option Pin)
    (input : List String) : Prop where
  /-- A list that is there is printed, and discloses its sites and passkeys with every line. -/
  printed : ∀ first second third session sites,
    Walk (openSession manager device pin input).run first (.ok session) →
    session.capabilities.passkeys →
    Walk (manager.listCredentials session).run second (.ok sites) →
    Walk (saySites sites).run third (.ok ()) →
    Walk (passkeys manager device pin input).run (first ++ (second ++ third)) (.ok ()) ∧
      ∀ text ∈ saidIn third, Discloses text
  /-- Where the listing fails, the command ends with its failure. -/
  failed : ∀ first second session failure,
    Walk (openSession manager device pin input).run first (.ok session) →
    session.capabilities.passkeys →
    Walk (manager.listCredentials session).run second (.error failure) →
    Walk (passkeys manager device pin input).run (first ++ second) (.error (.failed failure)) ∧
      ∀ rest result, Walk (passkeys manager device pin input).run (first ++ second ++ rest) result →
        rest = [] ∧ result = .error (.failed failure)
  /-- Whenever it fails, it has disclosed nothing. -/
  undisclosed : ∀ trace trouble,
    Walk (passkeys manager device pin input).run trace (.error trouble) →
    ∀ text ∈ saidIn trace, ¬ Discloses text

/-- **Listing passkeys is all or nothing.** The sites are listed first, and each of them in order
with the same PIN and handle; the first call that fails is the last one and its failure is the
result; without one there is the list of all sites. The command prints nothing of a list that it
did not get. -/
theorem listCredentials_all_or_nothing {manager : Manager} {session : Session} {entered : Pin}
    (hentered : session.entered = some entered) (hempty : entered.text ≠ "")
    (hplaceholder : entered.text ≠ Pin.placeholder) :
    AllOrNothing manager session entered ∧
      ∀ device pin input, PrintsAllOrNothing manager device pin input := by
  have hreal : (!entered.isPlaceholder) = true := by
    simpa [Pin.isPlaceholder] using hplaceholder
  have hpin : session.pin? = some entered := by
    rw [Session.pin?, hentered, Option.filter_some, if_pos hreal]
  have hargs : Invocation.pinArgs (some entered) = ["-w", entered.text] := by
    have htool : Pin.forTool? (some entered) = some entered.text := by
      simp [Pin.forTool?, Pin.isPlaceholder, hempty, hplaceholder]
    rw [Invocation.pinArgs, htool]
    rfl
  refine ⟨⟨?_, fun domain => ?_, fun trace result => walk_listCredentials hpin,
    fun tool past => (walk_listCredentials hpin).1 (walk_follow tool past _), ?_⟩,
    fun device pin input => ⟨?_, ?_, fun trace trouble h => says_of_passkeys_error h⟩⟩
  · rw [Invocation.args, hargs]
    rfl
  · rw [Invocation.args, hargs]
    rfl
  · intro trace result h
    obtain ⟨calls, rfl, hcalls⟩ := (walk_listCredentials hpin).1 h
    rw [hcalls.ok_iff, List.forall_mem_cons]
    exact ⟨fun hall => ⟨id, hall⟩, fun hall => hall.2⟩
  · intro first second third opened sites hopen hcapable hlist hprint
    refine ⟨?_, says_saySites sites third _ hprint⟩
    rw [passkeys, walk_attempt_bind]
    refine .inr ⟨first, second ++ third, opened, hopen, ?_, rfl⟩
    rw [if_pos hcapable, walk_attempt_bind]
    exact .inr ⟨second, third, sites, walk_attempt.2 ⟨_, hlist, rfl⟩, hprint, rfl⟩
  · intro first second opened failure hopen hcapable hlist
    have hfails := walk_passkeys_error.2
      (.inr ⟨first, second, opened, failure, hopen, hcapable, hlist, rfl, rfl⟩)
    refine ⟨hfails, fun rest result h => ?_⟩
    have hsame : first ++ second ++ rest = first ++ second ++ rest ++ [] :=
      (List.append_nil _).symm
    obtain ⟨htrace, hresult⟩ := hfails.unique h hsame
    exact ⟨List.append_cancel_left (htrace.symm.trans (List.append_nil _).symm), hresult.symm⟩

/-- A tool that lists the passkeys of one site and refuses those of the next. -/
def secondRefused : Tool where
  run _ call _ :=
    match call with
    | .listDomains .. => .ok ⟨some 0, "00: aGFzaA== = a.test\n01: aGFzaA== = b.test\n", ""⟩
    | .listCredentials _ _ "a.test" => .ok ⟨some 0, "00: Y3JlZA== alice es256\n", ""⟩
    | _ => .ok ⟨some 0, "", "FIDO_ERR_PIN_INVALID"⟩
  converse _ _ _ := none
  notStarted _ := .noTerminal
  launch _ _ := .error .noTerminal
  clock _ := 0

theorem listCredentials_all_or_nothing_secondRefused :
    Session.entered ⟨⟨"/dev/hidraw4", "Key", 1⟩, some ⟨"1234"⟩, .empty⟩ = some ⟨"1234"⟩ ∧
      "1234" ≠ "" ∧ "1234" ≠ Pin.placeholder ∧
      ∃ calls, PasskeyWalk "/dev/hidraw4" (some ⟨"1234"⟩) 20000 calls
        (.error (.device ⟨.invalidPin, "FIDO_ERR_PIN_INVALID"⟩)) := by
  have h : AllOrNothing ⟨.standard, "", .empty⟩
      ⟨⟨"/dev/hidraw4", "Key", 1⟩, some ⟨"1234"⟩, .empty⟩ ⟨"1234"⟩ :=
    (listCredentials_all_or_nothing rfl (by decide) (by decide)).1
  obtain ⟨calls, _, hcalls⟩ := h.follows secondRefused []
  refine ⟨rfl, by decide, by decide, calls, ?_⟩
  have hresult : (follow secondRefused [] (Manager.listCredentials ⟨.standard, "", .empty⟩
      ⟨⟨"/dev/hidraw4", "Key", 1⟩, some ⟨"1234"⟩, .empty⟩).run).2 =
      .error (.device ⟨.invalidPin, "FIDO_ERR_PIN_INVALID"⟩) := by
    decide
  rw [← hresult]
  exact hcalls

end SecurityKey.CommandLine

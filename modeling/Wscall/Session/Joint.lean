import Wscall.Session.Handshake

/-!
# What holds in every state of a client and its server
-/

namespace Wscall.Client.Traffic

/-- The session codec matters where something was written. -/
theorem Shipped.rekey {cfg cfg' : Config} {j : Journal} {s : State} (hs : Shipped cfg j s)
    (hlibs : cfg'.libs = cfg.libs) (hencryption : cfg'.defaultEncryption = cfg.defaultEncryption)
    (hcodec : ∀ g, s.written g ≠ [] → cfg'.sessionCodec g = cfg.sessionCodec g) : Shipped cfg' j s := by
  have hfrom : ∀ {item : Item}, item.From cfg j → item.From cfg' j := by
    intro item h
    cases item with
    | request | ack =>
      simp only [Item.From, Config.packet, Config.ackPacket, hencryption] at h ⊢
      exact h
    | _ => exact h
  refine ⟨fun c id g packet h => hfrom (hs.sending c id g packet h),
    fun t received g packet h => hfrom (hs.events t received g packet h),
    fun g item h => hfrom (hs.items g item h), fun g item frame h => ?_, hs.home⟩
  rw [hcodec g (List.ne_nil_of_mem h), hlibs]
  exact hs.frames g item frame h

end Wscall.Client.Traffic

namespace Wscall.Session
open RustStd Protocol Client

section Joint

variable {W : Type} {L : Link W} {s s' : State} {g : ℕ} {c : String}

/-- The frames the server has read on a connection. -/
def framesRead (server : Server.State) (c : String) : List Bytes :=
  (server.conns c).inbox.filterMap messageBytes

/-- What the client's reader has taken on a connection, oldest first. -/
def heardOn (j : Traffic.Journal) (g : ℕ) : List PacketBody :=
  (j.heard.filter fun x => x.1 = g).map Prod.snd

/-- The server has read the first messages of the client, in order. Under ECDH the first one is the
client's key and no frame. -/
structure ReadsAlong (L : Link W) (s : State) (c : String) (g : ℕ) : Prop where
  bounded : s.read g ≤ (s.stream g).length
  unkeyed : (s.server.conns c).phase.Unkeyed → s.read g = 0
  exchanged : L.setup.server.isEcdh = true → ((s.server.conns c).codec ≠ none ∨
    ∃ secret clientPublic, (s.server.conns c).phase = .keySending secret clientPublic) → 0 < s.read g
  frames : framesRead s.server c = ((s.stream g).take (s.read g)).drop L.setup.server.isEcdh.toNat

/-- The client has taken the first messages of the server, in order, and its reader those after the
supervisor's. -/
structure HearsAlong (L : Link W) (s : State) (c : String) (g : ℕ) : Prop where
  bounded : s.fetched g ≤ (s.server.conns c).sent.length
  greeted : s.greeted g ≤ s.fetched g
  waiting : s.client.client.tasks g .reader = .unspawned → s.fetched g = s.greeted g
  bodies : heardOn s.journal g =
    (((s.server.conns c).sent.take (s.fetched g)).drop (s.greeted g)).filterMap (L.decoded s.keys g)

structure Joined (L : Link W) (s : State) : Prop where
  matched : Traffic.Matched s.journal s.client
  shipped : Traffic.Shipped (L.config s.keys) s.journal s.client
  core : Lifecycle.Core s.client.client
  mode : ∀ g, s.client.client.phase = .ecdhSending g → L.useEcdh = true
  silent : ∀ g, s.client.client.tasks g .writer = .unspawned → s.client.written g = []
  served : ∃ actions,
    Machine.run (Server.step L.setup) actions (Server.State.init L.setup) = some s.server
  heard : ∀ x ∈ s.journal.heard, ∃ c, L.generation c = some x.1
  introduced : ∀ g, Introduced L s g
  opened : ∀ c g, L.generation c = some g → Server.Opened L.setup
    (fun key => L.useEcdh = true → key = L.publicKey g) (s.server.conns c)
  up : ∀ c g, L.generation c = some g → ReadsAlong L s c g
  down : ∀ c g, L.generation c = some g → HearsAlong L s c g

theorem joined_init (L : Link W) : Joined L (State.init L) where
  matched := Traffic.matched_init
  shipped := Traffic.shipped_init _
  core := Lifecycle.core_init
  mode g h := by cases h
  silent _ _ := rfl
  served := ⟨[], rfl⟩
  heard x h := by cases h
  introduced := introduced_init L
  opened c g _ := Server.opened_init c
  up c g _ := by
    refine ⟨Nat.zero_le _, fun _ => rfl, fun _ h => ?_, by simp [framesRead, State.init,
      Server.State.init, Server.Conn.new]⟩
    simp [State.init, Server.State.init, Server.Conn.new] at h
  down c g _ := ⟨Nat.zero_le _, le_rfl, fun _ => rfl, rfl⟩

theorem ReadsAlong.in_order (h : ReadsAlong L s c g) :
    framesRead s.server c <+: (s.stream g).drop L.setup.server.isEcdh.toNat := by
  rw [h.frames]
  exact (List.take_prefix ..).drop _

theorem HearsAlong.in_order (h : HearsAlong L s c g) :
    heardOn s.journal g <+:
      ((s.server.conns c).sent.drop (s.greeted g)).filterMap (L.decoded s.keys g) := by
  rw [h.bodies]
  exact ((List.take_prefix ..).drop _).filterMap _

/-! ### The first message of the client -/

/-- Nothing is written before the client's key is sent. -/
theorem Joined.written_nil (hs : Joined L s) (hecdh : L.useEcdh = true) (hnone : s.keys g = none) :
    s.client.written g = [] :=
  hs.silent g ((((hs.introduced g).exchange hecdh).unkeyed hnone).2 .writer)

theorem Joined.opening_ne_nil (hs : Joined L s) (hecdh : L.useEcdh = true)
    (hwritten : s.client.written g ≠ []) : s.opening g ≠ [] := by
  obtain ⟨key, hkey⟩ := Option.ne_none_iff_exists'.mp fun hnone => hwritten (hs.written_nil hecdh hnone)
  exact (((hs.introduced g).exchange hecdh).keyed key hkey).1

/-- The frames of the client, after its key. -/
theorem Joined.frames_eq (hs : Joined L s) (g : ℕ) : (s.stream g).drop L.useEcdh.toNat =
    (s.opening g).drop L.useEcdh.toNat ++ (s.client.written g).map Prod.snd := by
  cases hecdh : L.useEcdh with
  | false => rfl
  | true =>
    by_cases hwritten : s.client.written g = []
    · simp [State.stream, hwritten]
    · have hlen := List.length_pos_iff.mpr (hs.opening_ne_nil hecdh hwritten)
      exact List.drop_append_of_le_length hlen

theorem Joined.first (hs : Joined L s) (hecdh : L.useEcdh = true) {message : Bytes}
    (h : (s.stream g)[0]? = some message) : message = (L.publicKey g).toList := by
  refine ((hs.introduced g).exchange hecdh).first message ?_
  by_cases hwritten : s.client.written g = []
  · rw [List.head?_eq_getElem?, ← h, State.stream, hwritten, List.map_nil, List.append_nil]
  · have hlen := List.length_pos_iff.mpr (hs.opening_ne_nil hecdh hwritten)
    rw [List.head?_eq_getElem?, ← h, State.stream, List.getElem?_append_left hlen]

/-! ### Steps of the client -/

theorem heard_next (j : Traffic.Journal) (client : Traffic.State) {a : Traffic.Action}
    (ha : ∀ g body t, a ≠ .reader g (.packet body t)) : (j.next client a).heard = j.heard := by
  cases a with
  | call c op =>
    cases op with
    | start request =>
      rw [Traffic.Journal.next]
      split
      · split <;> rfl
      · rfl
    | _ => rfl
  | reader g op =>
    cases op with
    | packet body t => exact absurd rfl (ha g body t)
    | _ => rfl
  | _ => rfl

theorem ReadsAlong.moveClient (h : ReadsAlong L s c g) (hserver : s'.server = s.server)
    (hread : s'.read = s.read) (hstream : s.stream g <+: s'.stream g) : ReadsAlong L s' c g := by
  obtain ⟨more, hmore⟩ := hstream
  refine ⟨?_, ?_, ?_, ?_⟩
  · rw [hread, ← hmore, List.length_append]
    exact h.bounded.trans (Nat.le_add_right ..)
  · rw [hserver, hread]
    exact h.unkeyed
  · rw [hserver, hread]
    exact h.exchanged
  · rw [hserver, hread, ← hmore, List.take_append_of_le_length h.bounded]
    exact h.frames

theorem HearsAlong.moveClient (h : HearsAlong L s c g) (hserver : s'.server = s.server)
    (hkeys : s'.keys g = s.keys g) (hfetched : s'.fetched g = s.fetched g)
    (hgreeted : s'.greeted g = s.greeted g) (hheard : heardOn s'.journal g = heardOn s.journal g)
    (hspawns : Lifecycle.Spawns s.client.client s'.client.client g .reader) : HearsAlong L s' c g := by
  refine ⟨?_, ?_, fun hpc => ?_, ?_⟩
  · rw [hserver, hfetched]
    exact h.bounded
  · rw [hgreeted, hfetched]
    exact h.greeted
  · rw [hgreeted, hfetched]
    exact h.waiting (hspawns.once hpc)
  · rw [hserver, hfetched, hgreeted, hheard, decoded_congr hkeys]
    exact h.bodies

/-- The supervisor takes the next message. -/
theorem HearsAlong.greet (h : HearsAlong L s c g) (hpc : s.client.client.tasks g .reader = .unspawned)
    {message : Server.WireMessage} (hmessage : (s.server.conns c).sent[s.fetched g]? = some message)
    (hserver : s'.server = s.server) (hfetched : s'.fetched g = s.fetched g + 1)
    (hgreeted : s'.greeted g = s.greeted g + 1) (hheard : heardOn s'.journal g = heardOn s.journal g) :
    HearsAlong L s' c g := by
  have hsame := h.waiting hpc
  obtain ⟨hlt, -⟩ := List.getElem?_eq_some_iff.mp hmessage
  have hnone : ∀ (sent : List Server.WireMessage) (n : ℕ), (sent.take n).drop n = [] := by simp
  refine ⟨?_, ?_, fun _ => ?_, ?_⟩
  · rw [hserver, hfetched]
    exact hlt
  · omega
  · omega
  · have hbodies := h.bodies
    rw [hsame, hnone, List.filterMap_nil] at hbodies
    rw [hheard, hbodies, hfetched, hgreeted, hsame, hnone, List.filterMap_nil]

/-- The reader takes the next message. -/
theorem HearsAlong.fetch (h : HearsAlong L s c g) (hpc : s.client.client.tasks g .reader = .running)
    {message : Server.WireMessage} (hmessage : (s.server.conns c).sent[s.fetched g]? = some message)
    (hserver : s'.server = s.server) (hkeys : s'.keys g = s.keys g)
    (hfetched : s'.fetched g = s.fetched g + 1) (hgreeted : s'.greeted g = s.greeted g)
    (hheard : heardOn s'.journal g = heardOn s.journal g ++ (L.decoded s.keys g message).toList)
    (hspawns : Lifecycle.Spawns s.client.client s'.client.client g .reader) : HearsAlong L s' c g := by
  obtain ⟨hlt, -⟩ := List.getElem?_eq_some_iff.mp hmessage
  have hle := h.greeted
  refine ⟨?_, ?_, fun hun => ?_, ?_⟩
  · rw [hserver, hfetched]
    exact hlt
  · omega
  · cases hpc.symm.trans (hspawns.once hun)
  · have hlen : s.greeted g ≤ ((s.server.conns c).sent.take (s.fetched g)).length := by
      rw [List.length_take]
      omega
    rw [hheard, h.bodies, hserver, hfetched, hgreeted, decoded_congr hkeys, List.take_add_one, hmessage,
      List.drop_append_of_le_length hlen, List.filterMap_append]
    congr 1

theorem Introduced.kept (h : Introduced L s g) (hopening : s'.opening g = s.opening g)
    (hkeys : s'.keys g = s.keys g) (hexchange : L.useEcdh = true → Exchanging L s' g) :
    Introduced L s' g := by
  refine ⟨fun bytes hmem => ?_, hexchange⟩
  rw [hopening] at hmem
  obtain ⟨credential, hencode⟩ := h.hellos bytes hmem
  exact ⟨credential, by rwa [sessionCodec_congr hkeys]⟩

/-- What every step of the client keeps. -/
theorem Joined.moveClient (hs : Joined L s) {a : Traffic.Action}
    (h : Traffic.step (L.config s.keys) a s.client = some s'.client)
    (hjournal : s'.journal = s.journal.next s.client a) (hserver : s'.server = s.server)
    (hread : s'.read = s.read) (hstream : ∀ g, s.stream g <+: s'.stream g)
    (hcodec : ∀ g, s'.client.written g ≠ [] → L.sessionCodec s'.keys g = L.sessionCodec s.keys g)
    (hheard : ∀ x ∈ s'.journal.heard, ∃ c, L.generation c = some x.1)
    (hintroduced : ∀ g, Introduced L s' g)
    (hdown : ∀ c g, L.generation c = some g → HearsAlong L s' c g) : Joined L s' := by
  have hturn := Traffic.turn_of_step h
  have hopens := Traffic.opens_of_step h
  refine ⟨hjournal ▸ hs.matched.turn hturn, ?_, hopens.core hs.core,
    fun g hp => (hopens.ecdh hp).elim id (hs.mode g), fun g hpc => ?_, hserver ▸ hs.served, hheard, hintroduced, hserver ▸ hs.opened, fun c g hg => (hs.up c g hg).moveClient hserver hread (hstream g),
    hdown⟩
  · rw [hjournal]
    exact (Traffic.Shipped.turn hs.matched hs.shipped hturn).rekey rfl rfl hcodec
  · have hold := (hopens.spawns hs.core g .writer).once hpc
    rw [hopens.written (by simp [hold])]
    exact hs.silent g hold

theorem stream_of_step {a : Traffic.Action}
    (h : Traffic.step (L.config s.keys) a s.client = some s'.client)
    (hopening : s'.opening g = s.opening g) : s.stream g <+: s'.stream g := by
  rw [State.stream, State.stream, hopening]
  exact (List.prefix_append_right_inj _).mpr
    ((Traffic.written_of_turn (Traffic.turn_of_step h) g).map Prod.snd)

/-- A step of the client that is not one of the key exchange. -/
theorem Joined.quietClient (hs : Joined L s) {a : Traffic.Action}
    (h : Traffic.step (L.config s.keys) a s.client = some s'.client)
    (hjournal : s'.journal = s.journal.next s.client a) (hserver : s'.server = s.server)
    (hread : s'.read = s.read) (hkeys : s'.keys = s.keys)
    (hopening : ∀ g, s.opening g <+: s'.opening g) (hgreeted : ∀ g, s.greeted g ≤ s'.greeted g)
    (hsame : ∀ g, s.client.client.stage g ≠ .agreed →
      s'.opening g = s.opening g ∧ s'.greeted g = s.greeted g)
    (hstream : ∀ g, s.stream g <+: s'.stream g)
    (hhellos : ∀ g, ∀ bytes ∈ (s'.opening g).drop L.useEcdh.toNat, Greets L s g bytes)
    (hoffer : ∀ reason, a ≠ .lifecycle (.supervisor (.ecdhSent true)) reason)
    (hkey : ∀ bytes reason, a ≠ .lifecycle (.supervisor (.ecdhReceived (some bytes))) reason)
    (hheard : ∀ x ∈ s'.journal.heard, ∃ c, L.generation c = some x.1)
    (hdown : ∀ c g, L.generation c = some g → HearsAlong L s' c g) : Joined L s' := by
  have hopens := Traffic.opens_of_step h
  refine hs.moveClient h hjournal hserver hread hstream (fun g _ => by rw [hkeys]) hheard (fun g => ?_) hdown
  refine ⟨fun bytes hmem => ?_, fun hecdh => ?_⟩
  · obtain ⟨credential, hencode⟩ := hhellos g bytes hmem
    exact ⟨credential, by rwa [hkeys]⟩
  · exact ((hs.introduced g).exchange hecdh).kept (hopens.stage hecdh (fun _ => hoffer) fun _ => hkey)
      (hopens.spawns hs.core g) (by rw [hkeys]) (hopening g) (hgreeted g) (hsame g) fun c _ => by rw [hserver]

theorem Joined.written_of_unspawned (hs : Joined L s) (hp : s.client.client.phase.unspawned = some g) :
    s.client.written g = [] :=
  hs.silent g ((hs.core.unborn g (.inr hp)).2 .writer)

/-- What the supervisor sends comes before what the writer sends. -/
theorem stream_send {client : Traffic.State} (hwritten : client.written = s.client.written)
    (hnone : s.client.written g = []) (message : Bytes) (g' : ℕ) :
    s.stream g' <+: ({ s with client := client }.send g message).stream g' := by
  unfold State.stream State.send
  dsimp only
  rw [hwritten]
  by_cases hg : g' = g
  · subst hg
    rw [Function.update_self, hnone, List.map_nil, List.append_nil, List.append_nil]
    exact List.prefix_append ..
  · rw [Function.update_of_ne hg]

theorem Joined.client (hs : Joined L s) {a : Traffic.Action} {client : Traffic.State}
    (ha : viaSocket a = false) (h : Traffic.step (L.config s.keys) a s.client = some client) :
    Joined L { s with client := client, journal := s.journal.next s.client a } := by
  have hkept : (s.journal.next s.client a).heard = s.journal.heard := by
    refine heard_next s.journal s.client ?_
    rintro g body t rfl
    cases ha
  refine hs.quietClient h rfl rfl rfl rfl (fun _ => List.prefix_rfl) (fun _ => le_rfl)
    (fun _ _ => ⟨rfl, rfl⟩) (fun g => stream_of_step h rfl) (fun g => (hs.introduced g).hellos) ?_ ?_ ?_ ?_
  · rintro reason rfl
    cases ha
  · rintro bytes reason rfl
    cases ha
  · dsimp only
    rw [hkept]
    exact hs.heard
  · intro c g hg
    refine (hs.down c g hg).moveClient rfl rfl rfl rfl ?_ ((Traffic.opens_of_step h).spawns hs.core g .reader)
    rw [heardOn, heardOn, hkept]

/-- The client's key goes out. -/
theorem Joined.offered (hs : Joined L s) {g : ℕ} {client : Traffic.State}
    (hp : s.client.client.phase = .ecdhSending g)
    (h : Traffic.step (L.config s.keys) (supervisor (.ecdhSent true)) s.client = some client) :
    Joined L ({ s with client := client }.send g (L.publicKey g).toList) := by
  have hecdh := hs.mode g hp
  have hopens := Traffic.opens_of_step h
  obtain ⟨hclient, hwritten⟩ := Traffic.lifecycle_of_step h
  have hnone := hs.written_of_unspawned (g := g) (by rw [hp]; rfl)
  have hoffer := ((hs.introduced g).exchange hecdh).offer hs.core hp h
  refine hs.moveClient h rfl rfl rfl (stream_send hwritten hnone _) (fun _ _ => rfl) hs.heard
    (fun g' => ?_) fun c g' hg' => ?_
  · by_cases hg : g' = g
    · subst hg
      refine ⟨fun bytes hmem => ?_, fun _ => hoffer⟩
      have hlen := (hoffer.unkeyed ?_).1
      · rw [hecdh, Bool.toNat_true, List.drop_eq_nil_of_le hlen] at hmem
        cases hmem
      · have hstage := Lifecycle.stage_of_ecdhSent hs.core hp hclient
        exact (hoffer.offered hstage).2.1
    · have hsame : ({ s with client := client }.send g (L.publicKey g).toList).opening g' = s.opening g' :=
        Function.update_of_ne hg ..
      refine (hs.introduced g').kept hsame rfl fun _ => ?_
      refine ((hs.introduced g').exchange hecdh).kept (hopens.stage hecdh (fun hp' => ?_) (by simp [supervisor]))
        (hopens.spawns hs.core g') rfl (by rw [hsame]) le_rfl (fun _ => ⟨hsame, rfl⟩) fun _ _ => List.prefix_rfl
      rw [hp] at hp'
      cases hp'
      exact absurd rfl hg
  · exact (hs.down c g' hg').moveClient rfl rfl rfl rfl rfl (hopens.spawns hs.core g' .reader)

theorem Joined.stage_agreed (hs : Joined L s)
    (hp : s.client.client.phase = .authSending g ∨ s.client.client.phase = .authReading g) :
    s.client.client.stage g = .agreed := by
  rcases hp with hp | hp
  all_goals
    rw [(Lifecycle.stage_of_current hs.core (g := g) (by rw [hp]; rfl)).2, hp]
    exact if_pos rfl

/-- The client's auth request goes out. -/
theorem Joined.presented (hs : Joined L s) {g : ℕ} {frame : Bytes} {client : Traffic.State}
    (hp : s.client.client.phase = .authSending g) (hframe : L.hello s.keys g = some frame)
    (h : Traffic.step (L.config s.keys) (supervisor (.authSent true)) s.client = some client) :
    Joined L ({ s with client := client }.send g frame) := by
  have hopens := Traffic.opens_of_step h
  obtain ⟨-, hwritten⟩ := Traffic.lifecycle_of_step h
  have hnone := hs.written_of_unspawned (g := g) (by rw [hp]; rfl)
  have hagreed := hs.stage_agreed (.inl hp)
  have hself : ({ s with client := client }.send g frame).opening g = s.opening g ++ [frame] :=
    Function.update_self ..
  have hother : ∀ g', g' ≠ g → ({ s with client := client }.send g frame).opening g' = s.opening g' :=
    fun g' hne => Function.update_of_ne hne ..
  refine hs.quietClient h rfl rfl rfl rfl (fun g' => ?_) (fun _ => le_rfl) (fun g' hstage => ⟨?_, rfl⟩)
    (stream_send hwritten hnone _) (fun g' => ?_) (by simp [supervisor]) (by simp [supervisor]) hs.heard
    fun c g' hg' => (hs.down c g' hg').moveClient rfl rfl rfl rfl rfl (hopens.spawns hs.core g' .reader)
  · by_cases hg : g' = g
    · rw [hg, hself]
      exact List.prefix_append ..
    · rw [hother g' hg]
  · exact hother g' fun hg => hstage (hg ▸ hagreed)
  · by_cases hg : g' = g
    · subst hg
      have hlen : L.useEcdh.toNat ≤ (s.opening g').length := by
        cases hecdh : L.useEcdh with
        | false => exact Nat.zero_le _
        | true =>
          have hex := (hs.introduced g').exchange hecdh
          obtain ⟨key, hkey⟩ := Option.ne_none_iff_exists'.mp (hex.agreed hagreed)
          exact List.length_pos_iff.mpr (hex.keyed key hkey).1
      rw [hself, List.drop_append_of_le_length hlen]
      intro bytes hmem
      rcases List.mem_append.mp hmem with hmem | hmem
      · exact (hs.introduced g').hellos bytes hmem
      · cases List.mem_singleton.mp hmem
        exact hello_eq_some hframe
    · rw [hother g' hg]
      exact (hs.introduced g').hellos

/-- The client takes the server's key. -/
theorem Joined.keyed (hs : Joined L s) {c : String} {g : ℕ} {message : Server.WireMessage}
    {client : Traffic.State} (hg : L.generation c = some g)
    (hmessage : (s.server.conns c).sent[s.fetched g]? = some message)
    (hp : s.client.client.phase = .ecdhReading g)
    (h : Traffic.step (L.config s.keys) (supervisor (.ecdhReceived (binary message))) s.client =
      some client) : Joined L { s with
        client := client
        keys := Function.update s.keys g (L.derived g message)
        greeted := Function.update s.greeted g (s.greeted g + 1)
        fetched := Function.update s.fetched g (s.fetched g + 1) } := by
  have hopens := Traffic.opens_of_step h
  obtain ⟨-, hwritten⟩ := Traffic.lifecycle_of_step h
  have hpc := (hs.core.unborn g (.inr (by rw [hp]; rfl))).2 .reader
  have hstage : s.client.client.stage g = .offered := by
    rw [(Lifecycle.stage_of_current hs.core (g := g) (by rw [hp]; rfl)).2, hp]
    exact if_pos rfl
  refine hs.moveClient h rfl rfl rfl (fun _ => stream_of_step h rfl) (fun g' hne => ?_) hs.heard
    (fun g' => ?_) fun c' g' hg' => ?_
  · refine sessionCodec_congr (Function.update_of_ne (fun heq => hne ?_) ..)
    dsimp only
    rw [hwritten, heq]
    exact hs.written_of_unspawned (by rw [hp]; rfl)
  · by_cases hne : g' = g
    · subst hne
      refine ⟨fun bytes hmem => ?_, fun hecdh => ?_⟩
      · cases hecdh : L.useEcdh with
        | false =>
          obtain ⟨credential, hencode⟩ := (hs.introduced g').hellos bytes hmem
          refine ⟨credential, ?_⟩
          rw [sessionCodec_plain hecdh] at hencode ⊢
          exact hencode
        | true =>
          have hex := (hs.introduced g').exchange hecdh
          have hlen := (hex.unkeyed (hex.offered hstage).2.1).1
          dsimp only at hmem
          rw [hecdh, Bool.toNat_true, List.drop_eq_nil_of_le hlen] at hmem
          cases hmem
      · have hex := (hs.introduced g').exchange hecdh
        refine hex.receive hs.core hp h hg ?_ rfl rfl rfl (Function.update_self ..) ?_
        · rw [List.head?_eq_getElem?, ← hmessage, (hs.down c g' hg).waiting hpc, (hex.offered hstage).2.2]
        · dsimp only
          rw [Function.update_self]
          exact Nat.succ_pos _
    · have hkeys : Function.update s.keys g (L.derived g message) g' = s.keys g' := Function.update_of_ne hne ..
      have hgreeted : Function.update s.greeted g (s.greeted g + 1) g' = s.greeted g' :=
        Function.update_of_ne hne ..
      refine (hs.introduced g').kept rfl hkeys fun hecdh => ?_
      refine ((hs.introduced g').exchange hecdh).kept (hopens.stage hecdh (by simp [supervisor]) fun hp' => ?_)
        (hopens.spawns hs.core g') hkeys List.prefix_rfl hgreeted.ge (fun _ => ⟨rfl, hgreeted⟩)
        fun _ _ => List.prefix_rfl
      rw [hp] at hp'
      cases hp'
      exact absurd rfl hne
  · by_cases hne : g' = g
    · subst hne
      obtain rfl := L.injective c' c g' hg' hg
      exact (hs.down c' g' hg').greet hpc hmessage rfl (Function.update_self ..) (Function.update_self ..) rfl
    · exact (hs.down c' g' hg').moveClient rfl (Function.update_of_ne hne ..) (Function.update_of_ne hne ..)
        (Function.update_of_ne hne ..) rfl (hopens.spawns hs.core g' .reader)

/-- The client takes the answer to its auth request. -/
theorem Joined.judged (hs : Joined L s) {c : String} {g : ℕ} {message : Server.WireMessage}
    {client : Traffic.State} (hg : L.generation c = some g)
    (hmessage : (s.server.conns c).sent[s.fetched g]? = some message)
    (hp : s.client.client.phase = .authReading g)
    (h : Traffic.step (L.config s.keys) (supervisor (.authReceived (L.decoded s.keys g message)))
      s.client = some client) : Joined L { s with
        client := client
        greeted := Function.update s.greeted g (s.greeted g + 1)
        fetched := Function.update s.fetched g (s.fetched g + 1) } := by
  have hopens := Traffic.opens_of_step h
  have hpc := (hs.core.unborn g (.inr (by rw [hp]; rfl))).2 .reader
  have hagreed := hs.stage_agreed (.inr hp)
  refine hs.quietClient h rfl rfl rfl rfl (fun _ => List.prefix_rfl) (fun g' => ?_)
    (fun g' hstage => ⟨rfl, ?_⟩) (fun _ => stream_of_step h rfl) (fun g' => (hs.introduced g').hellos)
    (by simp [supervisor]) (by simp [supervisor]) hs.heard fun c' g' hg' => ?_
  · by_cases hne : g' = g
    · subst hne
      dsimp only
      rw [Function.update_self]
      exact Nat.le_succ _
    · dsimp only
      rw [Function.update_of_ne hne]
  · have hne : g' ≠ g := fun heq => hstage (heq ▸ hagreed)
    exact Function.update_of_ne hne ..
  · by_cases hne : g' = g
    · subst hne
      obtain rfl := L.injective c' c g' hg' hg
      exact (hs.down c' g' hg').greet hpc hmessage rfl (Function.update_self ..) (Function.update_self ..) rfl
    · exact (hs.down c' g' hg').moveClient rfl rfl (Function.update_of_ne hne ..)
        (Function.update_of_ne hne ..) rfl (hopens.spawns hs.core g' .reader)

theorem heardOn_hear (j : Traffic.Journal) (g : ℕ) (body : PacketBody) (g' : ℕ) :
    heardOn (j.hear g body) g' = heardOn j g' ++ if g' = g then [body] else [] := by
  rw [heardOn, heardOn, Traffic.Journal.hear, List.filter_append, List.map_append]
  congr 1
  by_cases hg : g' = g
  · simp [hg]
  · simp [hg, Ne.symm hg]

/-- The client's reader takes a packet. -/
theorem Joined.downlink (hs : Joined L s) {c : String} {g task : ℕ} {message : Server.WireMessage}
    {body : PacketBody} {client : Traffic.State} (hg : L.generation c = some g)
    (hmessage : (s.server.conns c).sent[s.fetched g]? = some message)
    (hpc : s.client.client.tasks g .reader = .running) (hbody : L.decoded s.keys g message = some body)
    (h : Traffic.step (L.config s.keys) (.reader g (.packet body task)) s.client = some client) :
    Joined L { s with
      client := client
      journal := s.journal.next s.client (.reader g (.packet body task))
      fetched := Function.update s.fetched g (s.fetched g + 1) } := by
  have hopens := Traffic.opens_of_step h
  refine hs.quietClient h rfl rfl rfl rfl (fun _ => List.prefix_rfl) (fun _ => le_rfl)
    (fun _ _ => ⟨rfl, rfl⟩) (fun _ => stream_of_step h rfl) (fun g' => (hs.introduced g').hellos)
    (by simp) (by simp) (fun x hx => ?_) fun c' g' hg' => ?_
  · rcases List.mem_append.mp hx with hx | hx
    · exact hs.heard x hx
    · cases List.mem_singleton.mp hx
      exact ⟨c, hg⟩
  · have hheard := heardOn_hear s.journal g body g'
    have hspawns := hopens.spawns hs.core g' .reader
    by_cases hne : g' = g
    · subst hne
      obtain rfl := L.injective c' c g' hg' hg
      refine (hs.down c' g' hg').fetch hpc hmessage rfl rfl (Function.update_self ..) rfl ?_ hspawns
      rw [hbody, Option.toList_some]
      exact hheard.trans (by rw [if_pos rfl])
    · refine (hs.down c' g' hg').moveClient rfl rfl (Function.update_of_ne hne ..) rfl ?_ hspawns
      exact hheard.trans (by rw [if_neg hne, List.append_nil])

theorem Joined.skipped (hs : Joined L s) {c : String} {g : ℕ} {message : Server.WireMessage}
    (hg : L.generation c = some g) (hmessage : (s.server.conns c).sent[s.fetched g]? = some message)
    (hpc : s.client.client.tasks g .reader = .running) (hbody : L.decoded s.keys g message = none) :
    Joined L { s with fetched := Function.update s.fetched g (s.fetched g + 1) } := by
  have hspawns : ∀ g', Lifecycle.Spawns s.client.client s.client.client g' .reader :=
    fun _ => .of_iff Iff.rfl
  refine ⟨hs.matched, hs.shipped, hs.core, hs.mode, hs.silent, hs.served, hs.heard, fun g' => ?_, hs.opened,
    fun c' g' hg' => (hs.up c' g' hg').moveClient rfl rfl List.prefix_rfl, fun c' g' hg' => ?_⟩
  · refine (hs.introduced g').kept rfl rfl fun hecdh => ?_
    exact ((hs.introduced g').exchange hecdh).kept (.inl rfl) (fun _ => .of_iff Iff.rfl) rfl List.prefix_rfl
      le_rfl (fun _ => ⟨rfl, rfl⟩) fun _ _ => List.prefix_rfl
  · by_cases hne : g' = g
    · subst hne
      obtain rfl := L.injective c' c g' hg' hg
      refine (hs.down c' g' hg').fetch hpc hmessage rfl rfl (Function.update_self ..) rfl ?_ (hspawns g')
      rw [hbody, Option.toList_none, List.append_nil]
    · exact (hs.down c' g' hg').moveClient rfl rfl (Function.update_of_ne hne ..) rfl rfl (hspawns g')

/-! ### Steps of the server -/

theorem Joined.sent_of_step (hs : Joined L s) (hg : L.generation c = some g) {a : Server.Action W}
    {server : Server.State} (h : Server.step L.setup a s.server = some server) :
    (s.server.conns c).sent <+: (server.conns c).sent := by
  cases Server.recorded_of_step h c with
  | accepted hp =>
    rw [(hs.opened c g hg).early (by rw [hp]; trivial)]
    exact List.nil_prefix
  | own hp htr =>
    rw [htr.sent]
    exact List.prefix_append ..
  | other ha hsame =>
    obtain ⟨more, hmore, -⟩ := hsame.sent
    rw [hmore]
    exact List.prefix_append ..

theorem HearsAlong.moveServer {server : Server.State} (h : HearsAlong L s c g)
    (hsent : (s.server.conns c).sent <+: (server.conns c).sent) {read : ℕ → ℕ} :
    HearsAlong L { s with server := server, read := read } c g := by
  obtain ⟨more, hmore⟩ := hsent
  have hle := h.bounded
  refine ⟨?_, h.greeted, h.waiting, h.bodies.trans ?_⟩
  · dsimp only
    rw [← hmore, List.length_append]
    omega
  · dsimp only
    rw [← hmore, List.take_append_of_le_length hle]

theorem bytes_taken {op : Server.ConnOp W} {phase : Server.Phase} {bytes : Bytes}
    (h : bytes ∈ (Server.taken op phase).filterMap messageBytes) :
    ∃ now random, op = .received (some (.binary bytes)) now random := by
  have hmessage : ∀ message : Option Server.WsMessage, bytes ∈ message.toList.filterMap messageBytes →
      message = some (.binary bytes) := by
    intro message hmem
    cases message with
    | none => cases hmem
    | some m => cases m <;> simp_all [messageBytes]
  unfold Server.taken at h
  split at h
  · exact ⟨_, _, by rw [hmessage _ h]⟩
  · exact ⟨_, _, by rw [hmessage _ h]⟩
  · cases h

theorem framesRead_own {server : Server.State} {op : Server.ConnOp W}
    (htr : Server.Transcribes L.setup (s.server.conns c) (server.conns c) op) : framesRead server c =
      framesRead s.server c ++ (Server.taken op (s.server.conns c).phase).filterMap messageBytes := by
  rw [framesRead, htr.inbox, List.filterMap_append]
  rfl

/-- A step of the server that takes no message of the client on the connection. -/
theorem ReadsAlong.other (h : ReadsAlong L s c g) {a : Server.Action W} {server : Server.State}
    (hinbox : (s.server.conns c).phase = .absent → (s.server.conns c).inbox = [])
    (hmove : Server.step L.setup a s.server = some server)
    (ha : ∀ bytes now random, a ≠ .conn c (.received (some (.binary bytes)) now random)) {read : ℕ → ℕ}
    (hread : read g = s.read g) : ReadsAlong L { s with server := server, read := read } c g := by
  have hbounded : read g ≤ (s.stream g).length := by
    rw [hread]
    exact h.bounded
  have hframes : ∀ {frames : List Bytes}, frames = framesRead s.server c →
      frames = ((s.stream g).take (read g)).drop L.setup.server.isEcdh.toNat := by
    intro frames heq
    rw [heq, hread]
    exact h.frames
  cases Server.recorded_of_step hmove c with
  | accepted hp hinbox' hcodec _ hphase =>
    have hzero := h.unkeyed (by rw [hp]; trivial)
    refine ⟨hbounded, fun _ => hread.trans hzero, fun _ hor => ?_, hframes ?_⟩
    · rcases hor with hne | ⟨secret, clientPublic, hsending⟩
      · exact absurd hcodec hne
      · rcases hphase with hphase | hphase <;> cases hphase.symm.trans hsending
    · rw [framesRead, framesRead, hinbox', hinbox hp]
  | other _ hsame =>
    refine ⟨hbounded, fun hun => ?_, fun hecdh hor => ?_, hframes ?_⟩
    · exact hread.trans (h.unkeyed (hsame.phase ▸ hun))
    · dsimp only at hor ⊢
      rw [hsame.codec, hsame.phase] at hor
      rw [hread]
      exact h.exchanged hecdh hor
    · rw [framesRead, framesRead, hsame.inbox]
  | @own op hp htr =>
    refine ⟨hbounded, fun hun => hread.trans (h.unkeyed (htr.unkeyed hun).1), fun hecdh hor => ?_,
      hframes ?_⟩
    · dsimp only at hor ⊢
      rw [hread]
      refine h.exchanged hecdh ?_
      rcases hor with hne | ⟨secret, clientPublic, hsending⟩
      · rcases Server.handshake_cases L.setup op (s.server.conns c).phase with
          ⟨-, secret, clientPublic, -, hold⟩ | ⟨w, result, bytes, hop, hold⟩ | ⟨-, hagreed | ⟨-, hplain⟩⟩
        · exact .inr ⟨secret, clientPublic, hold⟩
        · rw [htr.codec, hop, hold] at hne
          exact .inl hne
        · rw [htr.codec, hagreed, Option.none_or] at hne
          exact .inl hne
        · rw [hecdh] at hplain
          cases hplain
      · obtain ⟨bytes, now, random, rfl, -⟩ := htr.key secret clientPublic hsending
        exact absurd rfl (ha bytes now random)
    · have hnone : (Server.taken op (s.server.conns c).phase).filterMap messageBytes = [] := by
        refine List.eq_nil_iff_forall_not_mem.mpr fun bytes hmem => ?_
        obtain ⟨now, random, rfl⟩ := bytes_taken hmem
        exact ha bytes now random rfl
      rw [framesRead_own htr, hnone, List.append_nil]

/-- The server takes the client's next message: its key, or a frame. -/
theorem Joined.reads (hs : Joined L s) (hg : L.generation c = some g) {message : Bytes} {now : ℕ}
    {random : Except String Nonce} {server : Server.State}
    (hmessage : (s.stream g)[s.read g]? = some message)
    (hmove : Server.step L.setup (.conn c (.received (some (.binary message)) now random)) s.server =
      some server) :
    ReadsAlong L { s with server := server, read := Function.update s.read g (s.read g + 1) } c g := by
  have h := hs.up c g hg
  obtain ⟨actions, hserved⟩ := hs.served
  obtain ⟨hlt, -⟩ := List.getElem?_eq_some_iff.mp hmessage
  have hread : Function.update s.read g (s.read g + 1) g = s.read g + 1 := Function.update_self ..
  cases Server.recorded_of_step hmove c with
  | other ha => exact absurd rfl (ha _)
  | own hp htr =>
    refine ⟨?_, fun hun => ?_, fun _ _ => ?_, ?_⟩
    · dsimp only
      rw [hread]
      exact hlt
    · exact absurd rfl ((htr.unkeyed hun).2 _ now random)
    · dsimp only
      rw [hread]
      exact Nat.succ_pos _
    · dsimp only
      rw [hread, framesRead_own htr, h.frames]
      change _ = ((s.stream g).take _).drop _
      rw [List.take_add_one, hmessage]
      have hlater : (s.server.conns c).phase = .authReading ∨ (s.server.conns c).phase = .reading →
          L.setup.server.isEcdh.toNat ≤ ((s.stream g).take (s.read g)).length := by
        intro hphase
        rw [List.length_take_of_le h.bounded]
        cases hecdh : L.setup.server.isEcdh with
        | false => exact Nat.zero_le _
        | true =>
          refine h.exchanged hecdh (.inl ?_)
          refine Option.isSome_iff_ne_none.mp ((Server.waiting_run hserved).keyed c ?_ ?_)
          all_goals rcases hphase with hphase | hphase <;> simp [hphase, Server.Phase.Early]
      rcases Server.phase_of_received hmove with ⟨secret, hphase⟩ | hphase | hphase
      · -- the key: nothing was read before
        have hzero := h.unkeyed (by rw [hphase]; trivial)
        have hecdh := (((Server.sound_run hserved).conns c).early (by rw [hphase]; trivial)).2.2
          (by rw [hphase]; trivial)
        rw [hphase, hzero, hecdh]
        rfl
      · rw [List.drop_append_of_le_length (hlater (.inl hphase)), hphase]
        rfl
      · rw [List.drop_append_of_le_length (hlater (.inr hphase)), hphase]
        rfl

theorem Joined.moveServer (hs : Joined L s) {a : Server.Action W} {server : Server.State}
    (h : Server.step L.setup a s.server = some server) (read : ℕ → ℕ)
    (hkey : ∀ c g bytes now random secret clientPublic, L.generation c = some g →
      a = .conn c (.received (some (.binary bytes)) now random) →
      (s.server.conns c).phase = .keyReading secret → Server.parsePeerPublic bytes = .ok clientPublic →
      L.useEcdh = true → clientPublic = L.publicKey g)
    (hup : ∀ c g, L.generation c = some g →
      ReadsAlong L { s with server := server, read := read } c g) :
    Joined L { s with server := server, read := read } := by
  obtain ⟨actions, hserved⟩ := hs.served
  have hrun : Machine.run (Server.step L.setup) (actions ++ [a]) (Server.State.init L.setup) =
      some server := by
    rw [Machine.run_append, hserved]
    simp [Machine.run, h]
  refine ⟨hs.matched, hs.shipped, hs.core, hs.mode, hs.silent, ⟨_, hrun⟩, hs.heard, fun g => ?_,
    fun c g hg => ?_, hup, fun c g hg => (hs.down c g hg).moveServer (hs.sent_of_step hg h)⟩
  · refine (hs.introduced g).kept rfl rfl fun hecdh => ?_
    exact ((hs.introduced g).exchange hecdh).kept (.inl rfl) (fun _ => .of_iff Iff.rfl) rfl List.prefix_rfl
      le_rfl (fun _ => ⟨rfl, rfl⟩) fun c hg => hs.sent_of_step hg h
  · exact (hs.opened c g hg).step (Server.waiting_run hserved) (Server.sound_run hserved) h
      fun bytes now random secret clientPublic ha hp hparse => hkey c g bytes now random secret clientPublic hg ha hp hparse

/-- A step of the server alone. -/
theorem Joined.server (hs : Joined L s) {a : Server.Action W} {server : Server.State}
    (ha : L.admits a = true) (h : Server.step L.setup a s.server = some server) :
    Joined L { s with server := server } := by
  have hother : ∀ c g, L.generation c = some g → ∀ bytes now random,
      a ≠ .conn c (.received (some (.binary bytes)) now random) := by
    rintro c g hg bytes now random rfl
    rw [Link.admits, hg] at ha
    cases ha
  obtain ⟨actions, hserved⟩ := hs.served
  refine hs.moveServer h s.read ?_ fun c g hg => (hs.up c g hg).other (fun hp => ?_) h (hother c g hg) rfl
  · intro c g bytes now random secret clientPublic hg heq
    exact absurd heq (hother c g hg bytes now random)
  · exact (((Server.sound_run hserved).conns c).early (by rw [hp]; trivial)).2.1

/-- The server takes a message of the client. -/
theorem Joined.uplink (hs : Joined L s) {c : String} {g now : ℕ} {random : Except String Nonce}
    {message : Bytes} {server : Server.State} (hg : L.generation c = some g)
    (hmessage : (s.stream g)[s.read g]? = some message)
    (h : Server.step L.setup (.conn c (.received (some (.binary message)) now random)) s.server =
      some server) :
    Joined L { s with server := server, read := Function.update s.read g (s.read g + 1) } := by
  obtain ⟨actions, hserved⟩ := hs.served
  refine hs.moveServer h _ ?_ fun d g' hd => ?_
  · intro d g' bytes now' random' secret clientPublic hd heq hp hparse hecdh
    cases heq
    cases hg.symm.trans hd
    have hzero := (hs.up c g hg).unkeyed (by rw [hp]; trivial)
    rw [hzero] at hmessage
    rw [hs.first hecdh hmessage, parsePeerPublic_toList] at hparse
    cases hparse
    rfl
  · by_cases hcd : d = c
    · subst hcd
      cases hg.symm.trans hd
      exact hs.reads hg hmessage h
    · have hne : g' ≠ g := fun heq => hcd (L.injective d c g (heq ▸ hd) hg)
      refine (hs.up d g' hd).other (fun hp => ?_) h ?_ (Function.update_of_ne hne ..)
      · exact (((Server.sound_run hserved).conns d).early (by rw [hp]; trivial)).2.1
      · rintro bytes now' random' heq
        cases heq
        exact hcd rfl

/-! ### Runs -/

theorem Joined.step (hs : Joined L s) {a : Action W} (h : Wscall.Session.step L a s = some s') :
    Joined L s' := by
  cases turn_of_step h with
  | client ha hmove => exact hs.client ha hmove
  | offered hp hmove => exact hs.offered hp hmove
  | presented hp hframe hmove => exact hs.presented hp hframe hmove
  | server ha hmove => exact hs.server ha hmove
  | uplink hg hmessage hmove => exact hs.uplink hg hmessage hmove
  | keyed hg hmessage hp hmove => exact hs.keyed hg hmessage hp hmove
  | judged hg hmessage hp hmove => exact hs.judged hg hmessage hp hmove
  | downlink hg hmessage hpc hbody hmove => exact hs.downlink hg hmessage hpc hbody hmove
  | skipped hg hmessage hpc hbody => exact hs.skipped hg hmessage hpc hbody

theorem joined_run {actions : List (Action W)}
    (h : Machine.run (Wscall.Session.step L) actions (State.init L) = some s) : Joined L s :=
  Machine.run_invariant (fun _ _ _ hs h => hs.step h) h (joined_init L)

/-- X25519: both sides compute the same key. -/
def Link.Commutes (L : Link W) : Prop :=
  ∀ a b, L.setup.ecdh.deriveSessionKey a (L.setup.ecdh.publicBytes b) =
    L.setup.ecdh.deriveSessionKey b (L.setup.ecdh.publicBytes a)

/-- The two keys that crossed, and what each side made of the other's. -/
theorem Joined.exchanged (hs : Joined L s) (hclient : L.useEcdh = true)
    (hserver : L.setup.server.isEcdh = true) (hg : L.generation c = some g) {key : Key}
    (hkey : s.keys g = some key) : ∃ secret,
      (s.server.conns c).sent.head? = some (.publicKey (L.setup.ecdh.publicBytes secret)) ∧
      key = L.setup.ecdh.deriveSessionKey (L.secret g) (L.setup.ecdh.publicBytes secret) ∧
      (s.server.conns c).codec = some (Server.exchangedCodec L.setup secret (L.publicKey g)) := by
  obtain ⟨-, -, d, message, hd, hhead, hderived⟩ := ((hs.introduced g).exchange hclient).keyed key hkey
  obtain rfl := L.injective d c g hd hg
  have hopened := hs.opened d g hg
  have hsome : (s.server.conns d).codec ≠ none := by
    intro hnone
    rw [hopened.bare hserver hnone] at hhead
    cases hhead
  obtain ⟨codec, hcodec⟩ := Option.ne_none_iff_exists'.mp hsome
  obtain ⟨secret, clientPublic, rest, hpublic, rfl, hsent, -⟩ := hopened.exchanged hserver codec hcodec
  rw [hpublic hclient] at hcodec
  rw [hsent] at hhead
  cases hhead
  rw [derived_publicKey] at hderived
  cases hderived
  exact ⟨secret, by rw [hsent]; rfl, rfl, hcodec⟩

theorem sameCipher_exchanged (hcommutes : L.Commutes) (secret : Key) :
    (Server.exchangedCodec L.setup secret (L.publicKey g)).SameCipher
      (FrameCodec.plaintext.withChacha20Key
        (L.setup.ecdh.deriveSessionKey (L.secret g) (L.setup.ecdh.publicBytes secret))) := by
  rw [hcommutes (L.secret g) secret]
  exact (FrameCodec.sameCipher_limit _ _).symm

/-- A client that has derived its session key has derived it from the key the server sent on the
connection. The server by then has its session codec, from the key the client sent, and the two
codecs have the same cipher and key. -/
theorem ends_agree (hcommutes : L.Commutes) (hclient : L.useEcdh = true)
    (hserver : L.setup.server.isEcdh = true) {actions : List (Action W)}
    (h : Machine.run (Wscall.Session.step L) actions (State.init L) = some s)
    (hg : L.generation c = some g) {key : Key} (hkey : s.keys g = some key) :
    ∃ secret codec,
      (s.server.conns c).sent.head? = some (.publicKey (L.setup.ecdh.publicBytes secret)) ∧
      key = L.setup.ecdh.deriveSessionKey (L.secret g) (L.setup.ecdh.publicBytes secret) ∧
      (s.server.conns c).codec = some codec ∧
      codec = Server.exchangedCodec L.setup secret (L.publicKey g) ∧
      codec.SameCipher (L.sessionCodec s.keys g) := by
  obtain ⟨secret, hsent, rfl, hcodec⟩ := (joined_run h).exchanged hclient hserver hg hkey
  refine ⟨secret, _, hsent, rfl, hcodec, rfl, ?_⟩
  rw [sessionCodec_keyed hclient hkey]
  exact sameCipher_exchanged hcommutes secret

theorem ends_agree_call : ∃ s key secret codec,
    Machine.run (Wscall.Session.step callLink) callRun (State.init callLink) = some s ∧
    s.keys 1 = some key ∧
    (s.server.conns "c").sent.head? = some (.publicKey (callLink.setup.ecdh.publicBytes secret)) ∧
    key = callLink.setup.ecdh.deriveSessionKey (callLink.secret 1)
      (callLink.setup.ecdh.publicBytes secret) ∧
    (s.server.conns "c").codec = some codec ∧ codec.SameCipher (callLink.sessionCodec s.keys 1) := by
  have hrun : (Machine.run (Wscall.Session.step callLink) callRun (State.init callLink)).any
      (fun s => (s.keys 1).isSome) = true := by decide +kernel
  obtain ⟨s, hs, hp⟩ := (Option.any_eq_true ..).mp hrun
  obtain ⟨key, hkey⟩ := Option.isSome_iff_exists.mp hp
  obtain ⟨secret, codec, hsent, hderived, hcodec, -, hsame⟩ :=
    ends_agree (L := callLink) (c := "c") xorEcdh_exchange rfl rfl hs rfl hkey
  exact ⟨s, key, secret, codec, hs, hkey, hsent, hderived, hcodec, hsame⟩

/-- The server reads the client's frames in the order they were sent, after the client's key. The client
hears what the server has sent in the order it was sent, after what its supervisor took. Neither
misses anything in between; the client skips what it cannot decode. -/
theorem traffic_in_order {actions : List (Action W)}
    (h : Machine.run (Wscall.Session.step L) actions (State.init L) = some s)
    (hg : L.generation c = some g) :
    framesRead s.server c <+: (s.stream g).drop L.setup.server.isEcdh.toNat ∧
      heardOn s.journal g <+:
        ((s.server.conns c).sent.drop (s.greeted g)).filterMap (L.decoded s.keys g) := by
  have hs := joined_run h
  exact ⟨(hs.up c g hg).in_order, (hs.down c g hg).in_order⟩

end Joint

end Wscall.Session

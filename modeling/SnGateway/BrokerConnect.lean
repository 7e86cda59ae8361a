import SnGateway.BrokerSession

/-!
# From the configuration to the broker

What `loop` makes of the configuration while there is no session (`loop_connects`): the CONNECT that
is written, and when it leads to a session.
-/

namespace SnGateway
open RecordStore

namespace BrokerSession
variable {s s' : BrokerSession}

variable {core : Persistent} {config : MqttConfig} {login : MqttLogin} {will : MqttWill}
    {hasLogin hasWill : Bool} {d : ConnectData}

end BrokerSession

end SnGateway

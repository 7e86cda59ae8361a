import SnGateway.SlotReuse
import SnGateway.AddressLookup
import SnGateway.Errors
import SnGateway.DebugBuild
import SnGateway.CountAgreement
import SnGateway.PublishQueue
import SnGateway.SerialCodec
import SnGateway.Acknowledge
import SnGateway.SubscriptionStore
import SnGateway.Attachment
import SnGateway.Tcp
import SnGateway.Paho
import SnGateway.Receive
import SnGateway.LineLoops
import SnGateway.AcceptedTopics
import SnGateway.WillStore
import SnGateway.SubscriptionLookups
import SnGateway.PublishOrder
import SnGateway.ConfigLines
import SnGateway.ConfigReaders
import SnGateway.ConfigInsertion
import SnGateway.ConfigStrings
import SnGateway.ConfigNumbers
import SnGateway.PredefinedTopics
import SnGateway.Configuration
import SnGateway.AddressReaders
import SnGateway.Handshake
import SnGateway.TcpConnections
import SnGateway.BleSocket
import SnGateway.BleStatistic
import SnGateway.SlotAllocation
import SnGateway.BridgeSend
import SnGateway.Timers
import SnGateway.BrokerAddress
import SnGateway.MqttRoundTrip
import SnGateway.MqttFaults
import SnGateway.BrokerForwarding
import SnGateway.BrokerConnect
import SnGateway.ReceiverQueue
import SnGateway.BleRouting
import SnGateway.UdpSocket
import SnGateway.TcpReceive

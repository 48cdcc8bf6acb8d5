import NextendoMatchmaking.Wire.Rmc

/-!
# Protocol and method numbers

The constants of `matchmaking_handlers.go`, `matchmaking_notifdata.go` and `tournament.go` under which the
matchmaking handlers are reached.
-/

namespace NextendoMatchmaking

def protocolMatchMaking : UInt16 := 0x15
def protocolMatchmakeExtension : UInt16 := 0x6D
def protocolMatchMakingExt : UInt16 := 0x32

namespace Method

/-! ### MatchMaking (0x15) -/

def unregisterGathering : UInt32 := 0x02
def findBySingleID15 : UInt32 := 0x15
def updateSessionURL : UInt32 := 0x1B
def updateSessionHostV1 : UInt32 := 0x28
def getSessionURLs : UInt32 := 0x29
def updateSessionHost : UInt32 := 0x2A
def migrateGatheringOwnershipV1 : UInt32 := 0x24
def updateGatheringOwnership : UInt32 := 0x2B
def migrateGatheringOwnership : UInt32 := 0x2C

/-! ### MatchmakeExtension (0x6D) -/

def closeParticipation : UInt32 := 0x01
def openParticipation : UInt32 := 0x02
def modifyCurrentGameAttribute : UInt32 := 0x08
def updateNotificationData : UInt32 := 9
def getFriendNotificationData : UInt32 := 10
def updateApplicationBuffer : UInt32 := 0x0B
def getFriendNotificationDataList : UInt32 := 13
def updateProgressScore : UInt32 := 0x22
def createMatchmakeSessionWithParam : UInt32 := 0x26
def joinMatchmakeSessionWithParam : UInt32 := 0x27
def autoMatchmakeWithParamPostpone : UInt32 := 0x28
def updateMatchmakeSessionPart : UInt32 := 0x2C
def findByGidList : UInt32 := 0x30
def findMatchmakeSessionBySingleID : UInt32 := 0x31
def findByParticipant : UInt32 := 0x33
def browseNoHolder : UInt32 := 0x34
def ssbuArenaCode : UInt32 := 0x37
def ssbuArenaResolve : UInt32 := 0x38
def tournamentSearch : UInt32 := 0x39
def ssbuPreMatch : UInt32 := 0x3A
def customPlayingSession : UInt32 := 0x3C
def tournamentCreate : UInt32 := 0x3D
def tournamentDelete : UInt32 := 0x3E
def tournamentJoin : UInt32 := 0x3F
def customFriendsQuery : UInt32 := 0x41
def customPrivateRoomCreate : UInt32 := 0x44
def customResolveCode : UInt32 := 0x45

/-! ### MatchMakingExt (0x32) -/

def endParticipation : UInt32 := 0x1

end Method

end NextendoMatchmaking
